import ZonedTime.Calendar.Date

/-!
Times of day. Hour, minute and second are in range by construction. The nanosecond count reaches
two thousand million, so that a positive leap second can be written as second 59 with a full
second of nanoseconds on top; `Time.Proper` says when that is done as it should be.
-/

set_option autoImplicit false

namespace ZonedTime

def IsClock (hour minute second : Int) : Prop :=
  0 ≤ hour ∧ hour < 24 ∧ 0 ≤ minute ∧ minute < 60 ∧ 0 ≤ second ∧ second < 60

instance (hour minute second : Int) : Decidable (IsClock hour minute second) := by
  unfold IsClock
  infer_instance

structure Time where
  hour : Int
  minute : Int
  second : Int
  nano : Int
  inDay : IsClock hour minute second
  deriving DecidableEq

/-- A nanosecond count of a second or more stands for a leap second, which follows second 59. -/
def IsProperNano (second nano : Int) : Prop :=
  0 ≤ nano ∧ nano < 2000000000 ∧ (1000000000 ≤ nano -> second = 59)

instance (second nano : Int) : Decidable (IsProperNano second nano) := by
  unfold IsProperNano
  infer_instance

namespace Time

def Proper (time : Time) : Prop := IsProperNano time.second time.nano

instance (time : Time) : Decidable time.Proper := by
  unfold Proper
  infer_instance

def ofClock (hour minute second nano : Int) : Except Error Time :=
  if inDay : IsClock hour minute second then .ok { hour, minute, second, nano, inDay }
  else if ¬ (0 ≤ hour ∧ hour < 24) then .error .hour
  else if ¬ (0 ≤ minute ∧ minute < 60) then .error .minute
  else .error .second

def checkNano (second nano : Int) : Except Error Unit :=
  if nano < 0 ∨ 2000000000 ≤ nano then .error (.nanosecond nano)
  else if 1000000000 ≤ nano ∧ second ≠ 59 then .error .leapSecond
  else .ok ()

def ofFields (hour minute second nano : Int) : Except Error Time := do
  let time <- ofClock hour minute second nano
  checkNano second nano
  return time

def make (hour minute second nano : Int) : Except Error Time :=
  if fitsField hour && fitsField minute && fitsField second then
    ofFields hour minute second nano
  else .error .fieldWidth

def make? (hour minute second nano : Int) : Except Error (Option Time) :=
  if fitsField hour && fitsField minute && fitsField second then
    .ok (ofFields hour minute second nano).toOption
  else .error .fieldWidth

def midnight : Time := ⟨0, 0, 0, 0, by decide⟩

def secondOfDay (time : Time) : Int := 3600 * time.hour + 60 * time.minute + time.second

def ofSecondOfDay (second nano : Int) : Time where
  hour := second % 86400 / 3600
  minute := second % 3600 / 60
  second := second % 60
  nano := nano
  inDay := by unfold IsClock; omega

def isLeapSecond (time : Time) : Bool := 1000000000 ≤ time.nano

def shownSecond (time : Time) : Int := time.second + (if time.isLeapSecond then 1 else 0)

def millis (time : Time) : Int := time.nano / 1000000

def micros (time : Time) : Int := time.nano / 1000

/-- The microsecond for clocks that know no leap second, on which it stands still. -/
def clockMicros (time : Time) : Int := if time.isLeapSecond then 999999 else time.nano / 1000

def lt (a b : Time) : Bool :=
  a.secondOfDay < b.secondOfDay || (a.secondOfDay == b.secondOfDay && a.nano < b.nano)

def replace (time : Time) (hour minute second nano : Option Int) : Except Error Time :=
  make (hour.getD time.hour) (minute.getD time.minute) (second.getD time.second)
    (nano.getD time.nano)

end Time

end ZonedTime
