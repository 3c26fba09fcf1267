import EventRecorder.Runs
import Mathlib.Data.List.Basic
import Mathlib.Algebra.Group.Nat.Defs

/-!
# The log server

`handle_connection` reads records of a fixed size from a socket and hands each
to the local database. A read may deliver fewer bytes than a record has; the
server takes what it got for a record, filled up with the zeros that `bzero` has
left. So record boundaries are kept exactly where every read delivers a whole
record.
-/

namespace EventRecorder.LogServer

/-- A byte, as it comes from the socket. -/
abbrev Byte := UInt8

/-- What `readp` does: it fails, or delivers bytes of the stream, none at its end. -/
inductive Read where
  | failed
  | bytes (bytes : List Byte)

/-- The loop's variables: `retry`, whether the loop has been left, and what has been
passed to `sqlite_local_db_log`. -/
structure Server where
  retry : Nat
  done : Bool
  passed : List (List Byte)
  deriving DecidableEq

/-- Their values when the function is called: nothing counted and nothing passed on. -/
def Server.initial : Server := ⟨0, false, []⟩

/-- One pass of the loop. `size` is `sizeof (log_t)`; the record is filled with zeros
before every read. -/
def serve (size : Nat) (server : Server) (read : Read) : Server :=
  if server.done then server
  else
    match read with
    | .failed => server
    | .bytes [] =>
      if server.retry = 4 then { server with done := true }
      else { server with retry := server.retry + 1 }
    | .bytes bytes =>
      { server with passed := server.passed ++
          [bytes ++ List.replicate (size - bytes.length) 0] }

/-- `handle_connection`, given what its reads do. Reads behind the end of the loop are
not made and change nothing. -/
def handleConnection (size : Nat) (reads : List Read) : Server :=
  Runs.after (serve size) .initial reads

/-- The complete records of a stream, from its beginning on. Bytes behind the last of
them are in none. -/
def completeRecords (size : Nat) (stream : List Byte) : List (List Byte) :=
  (List.range (stream.length / size)).map fun index => (stream.drop (index * size)).take size

/-- What a read delivers of the stream: at least one byte, and no more than asked for. -/
structure Chunk (size : Nat) where
  bytes : List Byte
  some : bytes ≠ []
  fits : bytes.length ≤ size

/-- The reads of a connection: they deliver the stream in chunks, and nothing at its
end, until the loop is left. -/
def readsOf {size : Nat} (chunks : List (Chunk size)) : List Read :=
  chunks.map (.bytes ·.bytes) ++ List.replicate 5 (.bytes [])

/-- The server returns, and has passed on exactly the complete records of the stream. -/
def KeepsBoundaries {size : Nat} (chunks : List (Chunk size)) : Prop :=
  (handleConnection size (readsOf chunks)).done = true ∧
    (handleConnection size (readsOf chunks)).passed =
      completeRecords size (chunks.map Chunk.bytes).flatten

/-- A chunk as the record that is passed on, filled up with the zeros of a cleared
buffer. -/
def Chunk.record {size : Nat} (chunk : Chunk size) : List Byte :=
  chunk.bytes ++ List.replicate (size - chunk.bytes.length) 0

variable {size : Nat}

/-- A read that delivers something passes a record on, without a look at how much it
delivered. -/
theorem serve_chunk (server : Server) (chunk : Chunk size) (running : server.done = false) :
    serve size server (.bytes chunk.bytes) =
      { server with passed := server.passed ++ [chunk.record] } := by
  obtain ⟨first, rest, bytes⟩ := List.exists_cons_of_ne_nil chunk.some
  simp [serve, running, Chunk.record, bytes]

/-- Chunks are passed on one by one, and each starts the count of empty reads again. -/
theorem serve_chunks (chunks : List (Chunk size)) :
    Runs.after (serve size) .initial (chunks.map (.bytes ·.bytes)) =
      ⟨0, false, chunks.map Chunk.record⟩ := by
  induction chunks using List.reverseRecOn with
  | nil => rfl
  | append_singleton chunks chunk inductionHypothesis =>
    rw [List.map_append, Runs.after_append, inductionHypothesis, List.map_singleton,
      Runs.after_cons, serve_chunk _ chunk rfl, List.map_append]
    rfl

/-- Behind the stream, the fifth empty read leaves the loop. -/
theorem serve_end (passed : List (List Byte)) :
    Runs.after (serve size) ⟨0, false, passed⟩ (List.replicate 5 (.bytes [])) =
      ⟨4, true, passed⟩ := rfl

/-- What a connection comes to, for any segmentation of its stream into chunks. -/
theorem handle_connection_eq (chunks : List (Chunk size)) :
    handleConnection size (readsOf chunks) = ⟨4, true, chunks.map Chunk.record⟩ := by
  rw [handleConnection, readsOf, Runs.after_append, serve_chunks, serve_end]

/-- A stream that begins with a whole record has it for the first, and those of the rest
behind it. -/
theorem complete_records_append (record rest : List Byte) (positive : 0 < size)
    (whole : record.length = size) :
    completeRecords size (record ++ rest) = record :: completeRecords size rest := by
  have count : (record ++ rest).length / size = rest.length / size + 1 := by
    rw [List.length_append, whole, Nat.add_comm, Nat.add_div_right _ positive]
  rw [completeRecords, count, List.range_succ_eq_map, List.map_cons, List.map_map, Nat.zero_mul,
    List.drop_zero, List.take_left' whole, completeRecords]
  congr 1
  apply List.map_congr_left
  intro index _
  have behind : (index + 1) * size = record.length + index * size := by
    rw [whole, Nat.succ_mul, Nat.add_comm]
  rw [Function.comp_apply, Nat.succ_eq_add_one, behind, ← List.drop_drop, List.drop_left]

/-- Chunks that are whole records are the records of their stream, by induction on the
chunks. -/
theorem complete_records_full (chunks : List (Chunk size))
    (full : ∀ chunk ∈ chunks, chunk.bytes.length = size) :
    completeRecords size (chunks.map Chunk.bytes).flatten = chunks.map Chunk.bytes := by
  induction chunks with
  | nil => simp [completeRecords]
  | cons chunk rest inductionHypothesis =>
    have whole := full chunk List.mem_cons_self
    have positive : 0 < size := by
      rw [← whole]
      exact List.length_pos_of_ne_nil chunk.some
    rw [List.map_cons, List.flatten_cons, complete_records_append _ _ positive whole,
      inductionHypothesis fun other member => full other (List.mem_cons_of_mem _ member)]

/-- A stream is no longer than as many whole records as it has chunks, since a read asks
for no more than one. -/
theorem stream_length_le (chunks : List (Chunk size)) :
    (chunks.map Chunk.bytes).flatten.length ≤ chunks.length * size := by
  induction chunks with
  | nil => exact Nat.zero_le _
  | cons chunk rest inductionHypothesis =>
    have fits := chunk.fits
    rw [List.map_cons, List.flatten_cons, List.length_append, List.length_cons, Nat.succ_mul]
    omega

/-- If it is as long, each chunk is a whole record, as a shorter one would be missing
from the sum. -/
theorem full_of_stream_length (chunks : List (Chunk size))
    (long : chunks.length * size ≤ (chunks.map Chunk.bytes).flatten.length) :
    ∀ chunk ∈ chunks, chunk.bytes.length = size := by
  induction chunks with
  | nil => exact List.forall_mem_nil _
  | cons chunk rest inductionHypothesis =>
    have fits := chunk.fits
    have most := stream_length_le rest
    rw [List.map_cons, List.flatten_cons, List.length_append, List.length_cons,
      Nat.succ_mul] at long
    rw [List.forall_mem_cons]
    exact ⟨by omega, inductionHypothesis (by omega)⟩

/-- Record boundaries are kept exactly when every read that delivers something delivers
a whole record.

Proof: the server passes on one record for each chunk. If these are the complete records
there are as many of them as chunks, so that the stream is as long as it can be and
every chunk is whole; the converse is `complete_records_full`. -/
theorem keeps_boundaries_iff (chunks : List (Chunk size)) :
    KeepsBoundaries chunks ↔ ∀ chunk ∈ chunks, chunk.bytes.length = size := by
  rw [KeepsBoundaries, handle_connection_eq]
  constructor
  · rintro ⟨-, passed⟩
    have count := congrArg List.length passed
    simp only [List.length_map, completeRecords, List.length_range] at count
    apply full_of_stream_length
    rw [count]
    exact Nat.div_mul_le_self _ _
  · intro full
    refine ⟨rfl, ?_⟩
    rw [complete_records_full chunks full]
    apply List.map_congr_left
    intro chunk member
    rw [Chunk.record, full chunk member, Nat.sub_self, List.replicate_zero, List.append_nil]

/-- A record that arrives in two reads is passed on as two, each filled up with zeros. -/
theorem split_record_passed_twice :
    ¬ @KeepsBoundaries 4 [⟨[1, 2], by simp, by simp⟩, ⟨[3, 4], by simp, by simp⟩] := by
  rintro ⟨-, passed⟩
  revert passed
  decide

end EventRecorder.LogServer
