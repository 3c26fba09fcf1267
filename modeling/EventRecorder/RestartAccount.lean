import EventRecorder.StartUp
import EventRecorder.Watchdog

/-!
# The account of the watchdog

A round in which a slot has not answered counts a tick, and one tick more than its leniency
restarts it. In every interleaving the restarts of a slot are then the quotient, and its
ticks the remainder, of its silent rounds by one more than its leniency, whenever it answers
between. Each restart sends a record that names the thread, so the log shows the account.
-/

namespace EventRecorder.RestartAccount

open CText Watchdog LoggerRoutes StartUp

/-! ## Ticks and restarts -/

/-- The rounds in which a slot has not answered, those that end in a restart among them. -/
def silences (rounds : List Verdict) : Nat := rounds.countP (· ≠ .answered)

/-- The silent rounds of two parts of a run are counted together. -/
@[simp] theorem silences_append (before rest : List Verdict) :
    silences (before ++ rest) = silences before + silences rest := List.countP_append

/-- The silent rounds of a slot, told by its restarts and its ticks: each restart has
cost one more than the leniency, and what is left are the ticks. -/
structure Account (config : Watchdog.Config) (rounds : List Verdict) (watch : Watch) (k : Nat) :
    Prop where
  ticks : (watch.tickcount k).toNat ≤ (config.leniency k).toNat
  silent : silences rounds =
    ((config.leniency k).toNat + 1) * rounds.count .restarted + (watch.tickcount k).toNat

/-- A slot expires with one tick more than its leniency, if that can be counted in the
64 bits of the counter. -/
theorem expires_iff (config : Watchdog.Config) (watch : Watch) (k : Nat)
    (countable : (config.leniency k).toNat + 1 < 2 ^ 64)
    (ticks : (watch.tickcount k).toNat ≤ (config.leniency k).toNat) :
    Expires config watch k ↔ (config.leniency k).toNat = (watch.tickcount k).toNat := by
  rw [Expires, BitVec.lt_def, BitVec.toNat_add, Nat.mod_eq_of_lt (by simp; omega)]
  simp
  omega

/-- A slot that is found silent and not restarted has not expired. -/
theorem waits_of_silent (config : Watchdog.Config) (watch : Watch) (event : Watchdog.Event)
    (k : Nat) (silent : found config watch event k = [.silent]) : ¬ Expires config watch k := by
  intro expires
  have member : (k, Verdict.silent) ∈ verdict config watch event := by
    have only : Verdict.silent ∈ found config watch event k := by simp [silent]
    obtain ⟨⟨slot, verdict⟩, among, same⟩ := List.mem_map.mp only
    obtain ⟨seen, own⟩ := List.mem_filter.mp among
    obtain rfl : slot = k := by simpa using own
    obtain rfl : verdict = .silent := same
    exact seen
  cases event with
  | respond tid => cases member
  | check =>
    cases pc : watch.pc with
    | comparing slot =>
      simp only [verdict, pc] at member
      split_ifs at member with inside answered expired
      · simp at member
      · simp at member
      · obtain rfl : k = slot := by simpa using member
        exact expired expires
      · cases member
    | _ => simp [verdict, pc] at member

/-- An event keeps the account: a silent round is a tick, or a restart that takes the
ticks back to zero, and an answer is neither. -/
theorem event_account (config : Watchdog.Config) (watch : Watch) (event : Watchdog.Event)
    (k : Nat) (rounds : List Verdict) (countable : (config.leniency k).toNat + 1 < 2 ^ 64)
    (account : Account config rounds watch k) :
    Account config (rounds ++ found config watch event k) (next config watch event) k := by
  obtain ⟨ticks, silent⟩ := account
  have expires := expires_iff config watch k countable ticks
  cases event_looks config watch event k with
  | elsewhere none same =>
    rw [none, List.append_nil]
    exact ⟨by rwa [same], by rwa [same]⟩
  | answers only _ same =>
    rw [only]
    refine ⟨by rwa [same], ?_⟩
    rw [same, silences_append, silent, List.count_append]
    simp [silences]
  | ticks only more =>
    have waits := waits_of_silent config watch event k only
    have below : (watch.tickcount k).toNat < (config.leniency k).toNat :=
      Nat.lt_of_le_of_ne ticks fun same => waits (expires.mpr same.symm)
    have counted : (watch.tickcount k + 1).toNat = (watch.tickcount k).toNat + 1 := by
      rw [BitVec.toNat_add, Nat.mod_eq_of_lt (by simp; omega)]
      rfl
    rw [only]
    refine ⟨by rw [more, counted]; exact below, ?_⟩
    rw [more, counted, silences_append, silent, List.count_append]
    simp [silences]
    omega
  | restarts only expired zero =>
    have full := expires.mp expired
    rw [only]
    refine ⟨by rw [zero]; exact Nat.zero_le _, ?_⟩
    rw [zero, silences_append, silent, List.count_append]
    simp [silences]
    ring_nf
    omega

/-- In every run, whatever the counters were at its beginning, the account is kept. The
proof is by induction on the events. -/
theorem run_account (config : Watchdog.Config) (counters : Nat → BitVec 64)
    (events : List Watchdog.Event) (k : Nat)
    (countable : (config.leniency k).toNat + 1 < 2 ^ 64) :
    Account config (verdicts config counters k events)
      (Runs.after (next config) (start counters) events) k := by
  induction events using List.reverseRecOn with
  | nil => exact ⟨Nat.zero_le _, rfl⟩
  | append_singleton before event inductionHypothesis =>
    rw [verdicts_snoc, Runs.after_append]
    exact event_account config _ event k _ countable inductionHypothesis

/-- So the restarts are the quotient, as the ticks are less than what a restart costs. -/
theorem restarts_eq (config : Watchdog.Config) (counters : Nat → BitVec 64)
    (events : List Watchdog.Event) (k : Nat)
    (countable : (config.leniency k).toNat + 1 < 2 ^ 64) :
    (verdicts config counters k events).count .restarted =
      silences (verdicts config counters k events) / ((config.leniency k).toNat + 1) := by
  obtain ⟨ticks, silent⟩ := run_account config counters events k countable
  rw [silent, Nat.mul_add_div (Nat.succ_pos _), Nat.div_eq_of_lt (by omega), Nat.add_zero]

/-! ## The records of the restarts -/

/-- `dn` and `processesn`, by the function that has the name. -/
def name : Thread → Text
  | .postman => "postman".toList
  | .broker => "broker".toList
  | .logger => "logger".toList
  | .safety => "safety".toList
  | .ui => "ui".toList
  | .cellular => "cellular".toList

/-- `dl` and `processesl`, in the order of the slots. -/
def leniencies : PostmanOpt → List Nat
  | .postman => [2, 1, 1] ++ [5, 5, 5]
  | .direct => [2, 1, 1, 2] ++ [5, 5]

/-- What the safeguard watches: as many slots as it has threads, each with its leniency. -/
def watched (opt : PostmanOpt) : Watchdog.Config where
  size := (config opt).size
  leniency k := BitVec.ofNat 64 ((leniencies opt).getD k 0)

/-- `FUNC_MAX_LEN`, the characters of a name that are printed. -/
def funcMaxLen : Nat := 20

/-- `RESTART_STRING`, the text in front of the name. -/
def restartString : Text := "Restarting process: ".toList

/-- `restart_mail` with a name printed behind `RESTART_STRING`, as far as there is room
in the mail. -/
def restartMail {F : Type} (mailDataSize : Nat) (thread : Thread) : Mail F :=
  storageMail ⟨.eventError, .error .restrPrcs (restartString ++
    snprintf (mailDataSize - restartString.length) ((name thread).take funcMaxLen)), []⟩

/-- The mail that a verdict leads to: one for a restart, and none otherwise. -/
def verdictMail {F : Type} (opt : PostmanOpt) (mailDataSize : Nat) (found : Nat × Verdict) :
    Option (Mail F) :=
  if found.2 = .restarted then (config opt).funcs[found.1]?.map (restartMail mailDataSize) else none

/-- The mails of a run of the watchdog, in the order of its verdicts. -/
def restartMails {F : Type} (opt : PostmanOpt) (mailDataSize : Nat) (counters : Nat → BitVec 64)
    (events : List Watchdog.Event) : List (Mail F) :=
  Runs.emitted (next (watched opt))
    (fun watch event => (verdict (watched opt) watch event).filterMap
      (verdictMail opt mailDataSize)) (start counters) events

/-- The threads are told apart by the first letters of their names. -/
theorem name_injective (left right : Thread) (same : (name left).head? = (name right).head?) :
    left = right := by
  revert same
  cases left <;> cases right <;> decide

/-- So are the records, where one letter fits them, so that counting records counts
those of one thread. -/
theorem restart_mail_injective {F : Type} (mailDataSize : Nat) (room : 22 ≤ mailDataSize)
    (left right : Thread)
    (same : (restartMail mailDataSize left : Mail F) = restartMail mailDataSize right) :
    left = right := by
  have printed (thread : Thread) :
      (snprintf (mailDataSize - restartString.length) ((name thread).take funcMaxLen)).head? =
        (name thread).head? := by
    obtain ⟨more, rfl⟩ := Nat.exists_eq_add_of_le' room
    have length : restartString.length = 20 := by decide
    rw [snprintf, length, show more + 22 - 20 - 1 = more + 1 by omega]
    cases thread <;> rfl
  apply name_injective
  rw [← printed left, ← printed right]
  simp only [restartMail, storageMail, Mail.mk.injEq, MailData.log.injEq, Log.mk.injEq,
    LogData.error.injEq, List.append_cancel_left_eq, true_and, and_true] at same
  rw [same]

/-- Each slot runs a thread of its own, in either configuration. -/
theorem funcs_nodup (opt : PostmanOpt) : (config opt).funcs.Nodup := by cases opt <;> decide

/-- The mails of a run are those of its verdicts, one after the other. -/
theorem restart_mails_eq {F : Type} (opt : PostmanOpt) (mailDataSize : Nat) (watch : Watch)
    (events : List Watchdog.Event) :
    (Runs.emitted (next (watched opt))
      (fun watch event => (verdict (watched opt) watch event).filterMap
        (verdictMail opt mailDataSize)) watch events : List (Mail F)) =
      (Runs.emitted (next (watched opt)) (verdict (watched opt)) watch events).filterMap
        (verdictMail opt mailDataSize) := by
  induction events generalizing watch with
  | nil => rfl
  | cons event rest inductionHypothesis =>
    rw [Runs.emitted_cons, Runs.emitted_cons, List.filterMap_append, inductionHypothesis]

/-- A verdict leads to the record of a thread if it is the restart of its slot. -/
theorem verdict_mail_iff {F : Type} (opt : PostmanOpt) (mailDataSize : Nat)
    (room : 22 ≤ mailDataSize) (k : Nat) (thread : Thread)
    (runs : (config opt).funcs[k]? = some thread) (found : Nat × Verdict) :
    verdictMail opt mailDataSize found = some (restartMail mailDataSize thread : Mail F) ↔
      found.1 = k ∧ found.2 = .restarted := by
  unfold verdictMail
  split_ifs with restarted
  · rw [and_iff_left restarted, Option.map_eq_some_iff]
    constructor
    · rintro ⟨other, inSlot, same⟩
      obtain rfl := restart_mail_injective mailDataSize room other thread same
      have below := (List.getElem?_eq_some_iff.mp inSlot).1
      exact (List.getElem?_inj below (funcs_nodup opt)).mp (inSlot.trans runs.symm)
    · intro own
      exact ⟨thread, by rw [own, runs], rfl⟩
  · simp [restarted]

/-- In every interleaving, the records that name a thread are as many as the quotient of
its silent rounds by one more than its leniency, whether or not it answered between
them.

Proof: the mails of the run are those of its verdicts, of which the restarts of one slot
are the mails with its name; and these are the quotient of `restarts_eq`. -/
theorem restarts_logged {F : Type} [DecidableEq F] (opt : PostmanOpt) (mailDataSize : Nat)
    (room : 22 ≤ mailDataSize) (counters : Nat → BitVec 64) (events : List Watchdog.Event)
    (k : Nat) (thread : Thread) (runs : (config opt).funcs[k]? = some thread) :
    (restartMails opt mailDataSize counters events : List (Mail F)).count
        (restartMail mailDataSize thread) =
      silences (verdicts (watched opt) counters k events) / ((leniencies opt).getD k 0 + 1) := by
  have small : ∀ i, (leniencies opt).getD i 0 < 6 := by
    intro i
    rw [List.getD_eq_getElem?_getD]
    cases found : (leniencies opt)[i]? with
    | none => decide
    | some leniency =>
      have all : ∀ leniency ∈ leniencies opt, leniency < 6 := by cases opt <;> decide
      exact all leniency (List.mem_of_getElem? found)
  have leniency : ((watched opt).leniency k).toNat = (leniencies opt).getD k 0 := by
    have below := small k
    rw [watched, BitVec.toNat_ofNat, Nat.mod_eq_of_lt (by omega)]
  have quotient := restarts_eq (watched opt) counters events k (by have := small k; omega)
  rw [leniency] at quotient
  rw [← quotient, restartMails, restart_mails_eq, verdicts, List.count, List.countP_filterMap,
    List.count, List.countP_map, List.countP_filter]
  apply List.countP_congr
  intro found _
  have named := verdict_mail_iff (F := F) opt mailDataSize room k thread runs found
  have same (sent : Option (Mail F)) (record : Mail F) :
      (sent.map (· == record)).getD false = true ↔ sent = some record := by
    cases sent <;> simp
  rw [same, named]
  simp [and_comm]

/-- The user interface is silent in six rounds, and answers in the third. -/
def silentRounds : List Watchdog.Event :=
  let round := List.replicate 7 Watchdog.Event.check
  round ++ round ++ .respond 3 :: List.replicate 9 .check ++ round ++ round ++ round ++ round

/-- It is restarted once, as its leniency is five and the answer takes no tick back. -/
theorem ui_restart_logged :
    (restartMails .postman 256 (fun _ => 0) silentRounds : List (Mail ℚ)).count
      (restartMail 256 .ui) = 1 :=
  (restarts_logged .postman 256 (by decide) (fun _ => 0) silentRounds 3 .ui rfl).trans
    (by decide +kernel)

end EventRecorder.RestartAccount
