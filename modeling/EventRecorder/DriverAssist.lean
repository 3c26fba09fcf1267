import EventRecorder.SafetyStatus

/-!
# Driver assistance

`safety_da_update` counts braking and accelerator use and asks for help on the
mail that starts a crash. Its counters are file-level variables, so they outlive
a restart of the safety thread; only `status->brake` belongs to the status.
-/

namespace EventRecorder.DriverAssist

open Arithmetic CText SafetyStatus

universe u

/-- The static variables of `da.cpp`: whether the brake is down, the countdown behind
its last use, the latch of the request for help, and the use of the accelerator with its
own latch. -/
structure Counters where
  breakp : Int
  breakCount : Int
  speedShift : Int
  accPedal : Nat
  accPedalToggle : Int
  deriving DecidableEq, Repr

/-- Their values at process start. The countdown is below zero, so that it takes back no
use of the brake. -/
def Counters.initial : Counters := ⟨0, -1, 0, 0, 0⟩

variable {F : Type u} [Arithmetic F]

/-- A mail for the user interface; `info` selects how it is shown, as a notification or
as a request. -/
def assistMail (msg info : String) : Mail F := ⟨1, mtAssist, .msg msg.toList, info.toList⟩

/-- `mail_notif_speed`: sent together with the request for help. -/
def mailNotifSpeed : Mail F := assistMail "Caution: major shift in speed detected" "NOTIF"

/-- `mail_acc_pedal`: sent when the accelerator is used too much. -/
def mailAccPedal : Mail F := assistMail "Caution: excessive use of the accelator" "NOTIF"

/-- `mail_notif_brake`: sent when the brake is used hard too often. -/
def mailNotifBrake : Mail F := assistMail "Caution: breaking hard frequently" "NOTIF"

/-- `mail_assist`: the request for help, sent by the mail that starts a crash. -/
def mailAssist : Mail F := assistMail "Medical attention" "ASSIST"

/-- `safety_da_update` on a mail that carries `f`: the mails sent, the status and the
static variables. Each channel has its own part of the variables. -/
def safetyDaUpdate (status : Status F) (counters : Counters) (mail : Mail F) (f : F) :
    List (Mail F) × Status F × Counters :=
  match mail.channel with
  | .brakeSwitchValue =>
    if truncate f ≠ 0 then
      if 5 ≤ status.brake then
        ([mailNotifBrake], { status with brake := 0 }, { counters with breakp := 1 })
      else ([], status, { counters with breakp := 1 })
    else if counters.breakp = 1 then
      ([], { status with brake := status.brake + 1 },
        { counters with breakp := 0, breakCount := 40 })
    else
      ([], { status with
          brake := if counters.breakCount = 0 then status.brake - 1 else status.brake },
        { counters with breakCount := counters.breakCount - 1 })
  | .acceleratorPedalValue =>
    -- The count is incremented only when the first conjunct holds.
    let above := lt (lit 30) f
    let counters := { counters with
      accPedal := if above then counters.accPedal + 1 else counters.accPedal }
    if above ∧ 200 < counters.accPedal ∧ counters.accPedalToggle = 0 then
      ([mailAccPedal], status, { counters with accPedalToggle := 1 })
    else if 20 < counters.accPedal then
      ([], status, { counters with accPedal := counters.accPedal - 20, accPedalToggle := 0 })
    else ([], status, counters)
  | .accelerationSpeedLongitudinal | .accelerationSpeedLateral =>
    if status.crashStatus = 1 ∧ counters.speedShift = 0 then
      ([mailNotifSpeed, mailAssist], status, { counters with speedShift := 1 })
    else ([], status, { counters with speedShift := 0 })
  | .vehicleSpeed | .unknown => ([], status, counters)

/-- Driver assistance changes no member of the status but the brake counter, so that
what is logged is what the update has left. -/
theorem da_status (status : Status F) (counters : Counters) (mail : Mail F) (f : F) :
    (safetyDaUpdate status counters mail f).2.1 =
      { status with brake := (safetyDaUpdate status counters mail f).2.1.brake } := by
  unfold safetyDaUpdate
  cases mail.channel with
  | unknown => rfl
  | vehicleSpeed => rfl
  | brakeSwitchValue => dsimp only; split_ifs <;> rfl
  | acceleratorPedalValue => dsimp only; split_ifs <;> rfl
  | accelerationSpeedLongitudinal => dsimp only; split_ifs <;> rfl
  | accelerationSpeedLateral => dsimp only; split_ifs <;> rfl

end EventRecorder.DriverAssist
