import EventRecorder.LoggerRoutes
import EventRecorder.SentMails

/-!
# The crash that the logger records

The mails of the safety loop are for the storage, except where a dump shows memory
that holds no written mail. The postman routes such a mail by whatever type the memory
shows, and it breaks on a type that it does not route; the logger alone passes over
such a mail. The two ways to the logger record the same crash unless memory shows such
a type.
-/

namespace EventRecorder.RecordedCrash

open Arithmetic PostOffice Routing LoggerRoutes
open SafetyStatus (safetyStatusInit Status ProcStat)
open SafetyLoop (LoopState Starts start)
open SentMails (Moment Exposed IsRecord sentAt sent)

section

variable {F : Type} [Arithmetic F]

/-- Where a dump reads no written mail, memory shows one of a type that the postman
routes. -/
def RoutableShown (state : LoopState F) (moment : Moment F) : Prop :=
  ∀ position, Exposed state moment.turn position → Routable (moment.memory position).type

variable [LogHeader]

/-- The mails of a moment are for the storage or shown by memory, so that only the
latter can have another type. -/
theorem sent_at_types (state : LoopState F) (moment : Moment F)
    (settled : state.status.crashStatus = 0 ∨ state.status.crashStatus = 2)
    (recorded : ∀ field, SentMails.Recorded (state.status.logBefore.buf field)) :
    ∀ mail ∈ sentAt state moment, mail.type = mtStorage ∨
      ∃ position, Exposed state moment.turn position ∧ mail = moment.memory position := by
  intro mail member
  have storage (record : IsRecord mail) : mail.type = mtStorage := by
    obtain ⟨_, _, _, rfl⟩ := record
    rfl
  cases sampled : moment.turn.mail.sample with
  | none =>
    obtain ⟨_, silent⟩ := SafetyLoop.turn_ignored state moment.turn sampled
    rw [sentAt, silent] at member
    cases member
  | some f =>
    rcases settled with idle | recording
    · by_cases starts : Starts state moment.turn
      · rw [SentMails.sent_crash state moment f sampled starts] at member
        rcases List.mem_cons.mp member with rfl | behind
        · exact .inl rfl
        · rcases List.mem_append.mp behind with dumped | last
          · exact (SentMails.dumps_shown state moment starts recorded mail dumped).imp_left storage
          · obtain rfl := List.mem_singleton.mp last
            exact .inl rfl
      · rw [(SentMails.sent_idle state moment idle starts).1] at member
        cases member
    · obtain ⟨types, records, _⟩ := SentMails.sent_recording state moment f sampled recording
      rw [types] at member
      rcases List.mem_append.mp member with live | last
      · exact .inl (storage (records mail live))
      · split_ifs at last
        · obtain rfl := List.mem_singleton.mp last
          exact .inl rfl
        · cases last

/-- The mails of a run are for the storage or shown by memory at one of its moments. -/
theorem sent_types (mallocp : Nat → Bool) (proc : Option ProcStat) (moments : List (Moment F))
    (success : (safetyStatusInit mallocp proc : Nat × Status F).1 = 0) :
    ∀ mail ∈ sent (start mallocp proc) moments, mail.type = mtStorage ∨
      ∃ before moment rest position, moments = before ++ moment :: rest ∧
        Exposed (Runs.after SentMails.step (start mallocp proc) before) moment.turn position ∧
        mail = moment.memory position := by
  intro mail member
  obtain ⟨before, moment, rest, split, sent⟩ := (Runs.mem_emitted _ _ _ _ _).mp member
  have types := sent_at_types (Runs.after SentMails.step (start mallocp proc) before) moment
    (by rw [SentMails.after_moments]; exact PostCrashWindow.run_settled mallocp proc _)
    (SentMails.moments_recorded mallocp proc before success)
  rcases types mail sent with storage | ⟨position, exposed, same⟩
  · exact .inl storage
  · exact .inr ⟨before, moment, rest, position, split, exposed, same⟩

/-- What memory shows at an exposed position is sent, after the start of a crash and so
behind at least one mail for the storage. -/
theorem exposed_sent (mallocp : Nat → Bool) (proc : Option ProcStat)
    (before rest : List (Moment F)) (moment : Moment F)
    (success : (safetyStatusInit mallocp proc : Nat × Status F).1 = 0) (position : Nat)
    (exposed : Exposed (Runs.after SentMails.step (start mallocp proc) before) moment.turn
      position) :
    moment.memory position ∈ sent (start mallocp proc) (before ++ moment :: rest) ∧
      storageMails (sent (start mallocp proc) (before ++ moment :: rest)) ≠ [] := by
  have starts := exposed.1
  obtain ⟨f, sampled, _⟩ := exposed.1
  have crash := SentMails.sent_crash _ moment f sampled starts
  have among (mail : Mail F)
      (here : mail ∈ sentAt (Runs.after SentMails.step (start mallocp proc) before) moment) :
      mail ∈ sent (start mallocp proc) (before ++ moment :: rest) :=
    (Runs.mem_emitted _ _ _ _ _).mpr ⟨before, moment, rest, rfl, here⟩
  constructor
  · apply among
    rw [crash]
    exact List.mem_cons_of_mem _ (List.mem_append_left _ (SentMails.memory_dumped _ moment
      (SentMails.moments_recorded mallocp proc before success) position exposed))
  · have first := among _ (by rw [crash]; exact List.mem_cons_self)
    exact List.ne_nil_of_mem (List.mem_filter.mpr ⟨first, rfl⟩)

/-- The two ways record the same crash exactly in those runs in which memory shows only
types that the postman routes.

Proof: the two ways agree on a list of mails exactly if all of them are routable. Those
that safety makes are, and those that memory shows are among the mails sent whenever a
position is exposed. -/
theorem recorded_alike_iff (mailDataSize : Nat) (callers : List Caller) (office : Office)
    (built : Built callers office) (postman : postmanCaller ∈ callers)
    (logger : loggerCaller ∈ callers) (mallocp : Nat → Bool) (proc : Option ProcStat)
    (moments : List (Moment F))
    (success : (safetyStatusInit mallocp proc : Nat × Status F).1 = 0)
    (ints : ∀ moment ∈ moments, ∀ position, (moment.memory position).type < 2 ^ 31) :
    Alike mailDataSize office (sent (start mallocp proc) moments) ↔
      Runs.EveryStep SentMails.step (start mallocp proc) moments
        fun _ state moment => RoutableShown state moment := by
  have wired : Wired callers office := ⟨built, postman, logger⟩
  have types := sent_types mallocp proc moments success
  constructor
  · intro alike before moment rest split position exposed
    subst split
    obtain ⟨member, storage⟩ :=
      exposed_sent mallocp proc before rest moment success position exposed
    have small : ∀ mail ∈ sent (start mallocp proc) (before ++ moment :: rest),
        mail.type < 2 ^ 31 := by
      intro mail member
      rcases types mail member with storage | ⟨_, shown, _, position, split, _, rfl⟩
      · rw [storage]
        decide
      · exact ints shown (by rw [split]; simp) position
    exact (alike_iff_routable wired mailDataSize _ small storage).mp alike _ member
  · intro shown
    apply alike_of_routable wired
    intro mail member
    rcases types mail member with storage | ⟨before, moment, rest, position, split, exposed, rfl⟩
    · rw [storage]
      decide
    · exact shown before moment rest split position exposed

end

/-- The quiet run up to its crash, where memory shows data records and so a type that is
routed. -/
theorem quiet_crash_alike :
    Alike 256 twoOffice (sent (start (fun _ => true) none)
      (SentMails.quietMoments (dataLog 0 0 []))) := by
  have shown : ∀ moment ∈ SentMails.quietMoments (dataLog 0 0 []), ∀ position,
      (moment.memory position).type = mtStorage := by
    intro moment member position
    obtain ⟨turn, _, rfl⟩ := List.mem_map.mp member
    rfl
  refine (recorded_alike_iff 256 twoCallers twoOffice two_built (by decide) (by decide)
    (fun _ => true) none _ rfl ?_).mpr ?_
  · intro moment member position
    rw [shown moment member]
    decide
  · intro before moment rest split position _
    rw [shown moment (by simp [split])]
    decide

/-- Where memory shows a negative type, the postman breaks on it, and the logger would
have passed it over. -/
theorem shown_type_not_alike :
    Built twoCallers twoOffice ∧ ¬ Alike 256 twoOffice (sent (start (fun _ => true) none)
      (SentMails.quietMoments ⟨0, -1, .int 0, []⟩)) := by
  refine ⟨two_built, ?_⟩
  obtain ⟨text, rest, crash⟩ := SentMails.quiet_sent ⟨0, -1, .int 0, []⟩
  rw [crash]
  have first : ∀ mail ∈ [(notifMail .eventCrashStart text : Mail ℚ)], Routable mail.type := by
    intro mail member
    obtain rfl := List.mem_singleton.mp member
    exact (by decide : Routable mtStorage)
  refine not_alike_behind ⟨two_built, by decide, by decide⟩ 256
    [notifMail .eventCrashStart text] rest ⟨0, -1, .int 0, []⟩ first (by decide) (by decide) ?_
  exact List.ne_nil_of_mem (List.mem_filter.mpr ⟨List.mem_cons_self, rfl⟩)

end EventRecorder.RecordedCrash
