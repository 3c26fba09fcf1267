import EventRecorder.CText
import Mathlib.Algebra.BigOperators.Group.List.Basic

/-!
# Hashing

`sha_hash` computes a SHA3-256 digest through OpenSSL and writes its first
hexadecimal digits. Any of the OpenSSL calls may fail; then nothing is written
and the caller finds its buffer as it was. The digest function itself belongs to
OpenSSL and is a parameter.

The hexadecimal writer formats a byte more than it needs and relies on three
bytes of room for each, then cuts the text at the requested length.
-/

namespace EventRecorder.Sha

open CText

/-- SHA3-256: a digest of 32 bytes. Nothing more is assumed of the function. -/
abbrev Sha3 := Text → Vector (Fin 256) 32

/-- A digest function for evaluation, which gives every text the same digest of zeros. -/
def zeroSha3 : Sha3 := fun _ => Vector.replicate 32 0

/-- A digest function that gives every text the digest a number writes, for evaluation
on one text. -/
def constantSha3 (digest : Nat) : Sha3 := fun _ =>
  Vector.ofFn fun byte => Fin.ofNat 256 (digest >>> (8 * (31 - byte.val)))

/-- Which of the OpenSSL calls of one `sha_hash` succeed. Those behind the first that
fails are not made. -/
structure MdCalls where
  ctxNew : Bool
  digestInit : Bool
  digestUpdate : Bool
  digestFinal : Bool
  deriving DecidableEq, Repr

/-- All calls succeed. -/
def MdCalls.succeed : MdCalls := ⟨true, true, true, true⟩

/-- `init_md_ctx`, which allocates the context and initialises the digest. -/
def initMdCtx (md : MdCalls) : Nat :=
  if !md.ctxNew then 1 else if !md.digestInit then 1 else 0

/-- `digest_message`, the returned code only: the digest itself is a function of the
message. -/
def digestMessage (md : MdCalls) : Nat :=
  if !md.digestUpdate then 1 else if !md.digestFinal then 1 else 0

/-- The loop of `sha_snprintf`, so many bytes of it: two digits and a terminator for
each. -/
def writeDigits (hashInt : List (Fin 256)) (hash : Text) : Nat → Text
  | 0 => hash
  | i + 1 => store (writeDigits hashInt hash i) (i * 2) (hexByte (hashInt.getD i 0) ++ [nul])

/-- `sha_snprintf`. The loop ends one byte behind half of the length, or with the
digest. -/
def shaSnprintf (hashInt : List (Fin 256)) (hash : Text) (hashLen : Nat) : Text :=
  (writeDigits hashInt hash (min (1 + hashLen / 2) hashInt.length)).set hashLen nul

/-- `sha_hash`: the returned code and the memory at `hash`, which nothing is written to
after a failure. -/
def shaHash (sha3 : Sha3) (md : MdCalls) (input : Text) (hash : Text) (hashLen : Nat) :
    Nat × Text :=
  if initMdCtx md ≠ 0 then (1, hash)
  else if digestMessage md ≠ 0 then (1, hash)
  else (0, shaSnprintf (sha3 input).toList hash hashLen)

/-- The first hexadecimal digits of a digest, two for each byte, as far as it goes. -/
def hexDigits (hashInt : List (Fin 256)) (bytes : Nat) : Text :=
  (hashInt.take bytes).flatMap hexByte

/-- There are two digits for each byte that the digest has. -/
@[simp] theorem hex_digits_length (hashInt : List (Fin 256)) (bytes : Nat) :
    (hexDigits hashInt bytes).length = 2 * min bytes hashInt.length := by
  simp [hexDigits, hexByte, List.length_flatMap, Nat.mul_comm]

/-- Fewer digits are the beginning of more, as long as whole bytes are taken. -/
theorem hex_digits_take (hashInt : List (Fin 256)) (fewer more : Nat) (short : fewer ≤ more) :
    (hexDigits hashInt more).take (2 * fewer) = hexDigits hashInt fewer := by
  induction fewer generalizing hashInt more with
  | zero => simp [hexDigits]
  | succ fewer inductionHypothesis =>
    cases hashInt with
    | nil => simp [hexDigits]
    | cons byte rest =>
      obtain ⟨more, rfl⟩ : ∃ less, more = less + 1 := ⟨more - 1, by omega⟩
      have shorter := inductionHypothesis rest more (by omega)
      have two : 2 * (fewer + 1) = 2 * fewer + 1 + 1 := by omega
      simp only [hexDigits, List.take_succ_cons, List.flatMap_cons, two] at shorter ⊢
      simp only [hexByte, List.cons_append, List.nil_append, List.take_succ_cons, shorter]

/-- The hexadecimal digits are printable, so that a string of them ends behind the last. -/
theorem nul_not_mem_hex_digits (hashInt : List (Fin 256)) (bytes : Nat) :
    nul ∉ hexDigits hashInt bytes := by
  simp only [hexDigits, List.mem_flatMap, hexByte, not_exists, not_and]
  intro byte _ member
  rcases List.mem_pair.mp member with high | low
  · exact hex_digit_ne_nul _ high.symm
  · exact hex_digit_ne_nul _ low.symm

/-- A text of lower-case hexadecimal digits, two for each byte. -/
def IsHexDigits (bytes : Nat) (text : Text) : Prop :=
  text.length = 2 * bytes ∧ ∀ c ∈ text, c ∈ "0123456789abcdef".toList

instance (bytes : Nat) (text : Text) : Decidable (IsHexDigits bytes text) :=
  inferInstanceAs (Decidable (_ ∧ _))

/-- The first digits of a digest are hexadecimal digits, if the digest has as many
bytes. -/
theorem hex_digits_are_digits (digest : Vector (Fin 256) 32) (bytes : Nat) (short : bytes ≤ 32) :
    IsHexDigits bytes (hexDigits digest.toList bytes) := by
  refine ⟨by simp [short], ?_⟩
  intro c member
  obtain ⟨byte, _, inside⟩ := List.mem_flatMap.mp member
  rcases List.mem_pair.mp inside with rfl | rfl
  · exact hex_digit_mem _
  · exact hex_digit_mem _

/-- Any two digits are those of a byte. There are few enough to try them all. -/
theorem exists_hex_byte (high low : Char) (highDigit : high ∈ "0123456789abcdef".toList)
    (lowDigit : low ∈ "0123456789abcdef".toList) : ∃ byte, hexByte byte = [high, low] := by
  have values : ∀ c ∈ "0123456789abcdef".toList, ∃ value < 16, hexDigit value = c := by
    intro c digit
    obtain ⟨value, found⟩ := List.mem_iff_getElem?.mp digit
    obtain ⟨inside, _⟩ := List.getElem?_eq_some_iff.mp found
    refine ⟨value, inside, ?_⟩
    rw [hexDigit, List.getD_eq_getElem?_getD, found]
    rfl
  obtain ⟨upper, upperBound, rfl⟩ := values high highDigit
  obtain ⟨lower, lowerBound, rfl⟩ := values low lowDigit
  refine ⟨⟨16 * upper + lower, by omega⟩, ?_⟩
  have quotient : (16 * upper + lower) / 16 = upper := by omega
  have remainder : (16 * upper + lower) % 16 = lower := by omega
  simp [hexByte, quotient, remainder]

/-- Any digits are those of some bytes, two by two. -/
theorem exists_bytes (bytes : Nat) (text : Text) (digits : IsHexDigits bytes text) :
    ∃ hashInt : List (Fin 256), hashInt.length = bytes ∧ hashInt.flatMap hexByte = text := by
  induction bytes generalizing text with
  | zero => exact ⟨[], rfl, (List.length_eq_zero_iff.mp digits.1).symm⟩
  | succ bytes inductionHypothesis =>
    obtain ⟨length, all⟩ := digits
    match text with
    | [] => simp at length
    | [_] => simp at length; omega
    | high :: low :: rest =>
      have restDigits : IsHexDigits bytes rest := by
        refine ⟨by simp at length; omega, ?_⟩
        intro c member
        exact all c (by simp [member])
      obtain ⟨hashInt, count, written⟩ := inductionHypothesis rest restDigits
      obtain ⟨byte, pair⟩ := exists_hex_byte high low (all high (by simp)) (all low (by simp))
      exact ⟨byte :: hashInt, by simp [count], by simp [pair, written]⟩

/-- Any digits are the first ones of some digest, with anything behind them. -/
theorem exists_digest (bytes : Nat) (text : Text) (short : bytes ≤ 32)
    (digits : IsHexDigits bytes text) :
    ∃ digest : Vector (Fin 256) 32, hexDigits digest.toList bytes = text := by
  obtain ⟨hashInt, count, written⟩ := exists_bytes bytes text digits
  refine ⟨⟨(hashInt ++ List.replicate (32 - bytes) 0).toArray, by simp [count]; omega⟩, ?_⟩
  simp [hexDigits, Vector.toList, List.take_left' count, written]

/-- No digits are the first ones of every digest, so that a digest can be chosen to
differ. -/
theorem exists_other_digest (bytes : Nat) (text : Text) (short : bytes ≤ 32)
    (nonempty : 0 < bytes) :
    ∃ digest : Vector (Fin 256) 32, hexDigits digest.toList bytes ≠ text := by
  have same : ∀ c ∈ "0123456789abcdef".toList,
      IsHexDigits bytes (List.replicate (2 * bytes) c) := by
    intro c digit
    refine ⟨by simp, ?_⟩
    intro d member
    rw [List.eq_of_mem_replicate member]
    exact digit
  obtain ⟨zeros, zerosDigits⟩ := exists_digest bytes _ short (same '0' (by decide))
  obtain ⟨ones, onesDigits⟩ := exists_digest bytes _ short (same '1' (by decide))
  by_cases zero : hexDigits zeros.toList bytes = text
  · refine ⟨ones, ?_⟩
    rw [onesDigits, ← zero, zerosDigits]
    intro equal
    obtain ⟨less, rfl⟩ : ∃ less, bytes = less + 1 := ⟨bytes - 1, by omega⟩
    simp [Nat.mul_add, List.replicate_succ] at equal
  · exact ⟨zeros, zero⟩

/-- After so many rounds the loop has written that many bytes' digits, within
the buffer's length.

Each round overwrites the terminator of the one before. -/
theorem write_digits (hashInt : List (Fin 256)) (hash : Text) (rounds : Nat)
    (bytes : rounds ≤ hashInt.length) (room : 2 * rounds < hash.length) :
    (writeDigits hashInt hash rounds).length = hash.length ∧
      (writeDigits hashInt hash rounds).take (2 * rounds) = hexDigits hashInt rounds := by
  induction rounds with
  | zero => simp [writeDigits, hexDigits]
  | succ i inductionHypothesis =>
    obtain ⟨length, digits⟩ := inductionHypothesis (by omega) (by omega)
    have offset : i * 2 ≤ (writeDigits hashInt hash i).length := by omega
    have inside : i * 2 + (hexByte (hashInt.getD i 0) ++ [nul]).length ≤
        (writeDigits hashInt hash i).length := by
      simp [hexByte]
      omega
    constructor
    · rw [writeDigits, store_length _ _ _ inside, length]
    · have written := store_take_end (writeDigits hashInt hash i) (i * 2)
        (hexByte (hashInt.getD i 0) ++ [nul]) offset
      have cut : 2 * (i + 1) = min (2 * (i + 1))
          (i * 2 + (hexByte (hashInt.getD i 0) ++ [nul]).length) := by
        simp [hexByte]
        omega
      have before : (writeDigits hashInt hash i).take (i * 2) = hexDigits hashInt i := by
        rw [Nat.mul_comm]
        exact digits
      have beforeLength : (hexDigits hashInt i).length = 2 * i := by
        rw [hex_digits_length, Nat.min_eq_left (by omega)]
      have found : hashInt[i]? = some (hashInt.getD i 0) := by
        rw [List.getD_eq_getElem?_getD, List.getElem?_eq_getElem (by omega)]
        rfl
      have last : hashInt.take (i + 1) = hashInt.take i ++ [hashInt.getD i 0] := by
        rw [List.take_add_one, found]
        rfl
      rw [writeDigits, cut, ← List.take_take, written, before, List.take_append,
        List.take_of_length_le (by omega), beforeLength, hexDigits, hexDigits, last,
        List.flatMap_append]
      congr 1
      have two : 2 * (i + 1) - 2 * i = 2 := by omega
      rw [two]
      rfl

/-- A successful hash leaves the requested digits and their terminator at the
beginning of the buffer, whatever it held. -/
theorem sha_hash_success (sha3 : Sha3) (md : MdCalls) (input hash : Text) (bytes : Nat)
    (success : md = .succeed) (short : bytes ≤ 32)
    (room : 2 * min (1 + bytes) 32 < hash.length) :
    (shaHash sha3 md input hash (2 * bytes)).1 = 0 ∧
      (shaHash sha3 md input hash (2 * bytes)).2.length = hash.length ∧
      (shaHash sha3 md input hash (2 * bytes)).2.take (2 * bytes + 1) =
        hexDigits (sha3 input).toList bytes ++ [nul] := by
  subst success
  have returned : shaHash sha3 .succeed input hash (2 * bytes) =
      (0, shaSnprintf (sha3 input).toList hash (2 * bytes)) := rfl
  have rounds : min (1 + 2 * bytes / 2) (sha3 input).toList.length = min (1 + bytes) 32 := by
    simp
  obtain ⟨length, digits⟩ := write_digits (sha3 input).toList hash (min (1 + bytes) 32)
    (by rw [Vector.length_toList]; exact Nat.min_le_right _ _) room
  have kept : (writeDigits (sha3 input).toList hash (min (1 + bytes) 32)).take (2 * bytes) =
      hexDigits (sha3 input).toList bytes := by
    have cut : 2 * bytes = min (2 * bytes) (2 * min (1 + bytes) 32) := by omega
    rw [cut, ← List.take_take, digits]
    exact hex_digits_take _ _ _ (by omega)
  rw [returned]
  refine ⟨rfl, ?_, ?_⟩
  · rw [shaSnprintf, rounds, List.length_set, length]
  · have terminated : (writeDigits (sha3 input).toList hash (min (1 + bytes) 32)).set
        (2 * bytes) nul = store (writeDigits (sha3 input).toList hash (min (1 + bytes) 32))
          (2 * bytes) [nul] := set_eq_store _ _ _ (by omega)
    rw [shaSnprintf, rounds, terminated]
    have written := store_take_end (writeDigits (sha3 input).toList hash (min (1 + bytes) 32))
      (2 * bytes) [nul] (by omega)
    rw [kept] at written
    exact written

/-- A failed hash returns 1 and leaves the buffer alone, whichever of the calls failed. -/
theorem sha_hash_failure (sha3 : Sha3) (md : MdCalls) (input hash : Text) (hashLen : Nat)
    (failure : md ≠ .succeed) : shaHash sha3 md input hash hashLen = (1, hash) := by
  obtain ⟨ctxNew, digestInit, digestUpdate, digestFinal⟩ := md
  revert failure
  cases ctxNew <;> cases digestInit <;> cases digestUpdate <;> cases digestFinal <;>
    simp [shaHash, initMdCtx, digestMessage, MdCalls.succeed]

end EventRecorder.Sha
