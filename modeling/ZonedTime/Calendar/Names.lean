import ZonedTime.Calendar.Week

set_option autoImplicit false

namespace ZonedTime.Calendar

open Text (ofString)

def monthNames : List Text :=
  [ofString "January", ofString "February", ofString "March", ofString "April", ofString "May",
    ofString "June", ofString "July", ofString "August", ofString "September",
    ofString "October", ofString "November", ofString "December"]

def weekdayNames : List Text :=
  [ofString "Monday", ofString "Tuesday", ofString "Wednesday", ofString "Thursday",
    ofString "Friday", ofString "Saturday", ofString "Sunday"]

def monthName (month : Int) : Text := monthNames.getD (month - 1).toNat []

def weekdayName (weekday : Int) : Text := weekdayNames.getD weekday.toNat []

def short (name : Text) : Text := name.take 3

def shortIndex? (names : List Text) (t : Text) : Option Nat :=
  names.findIdx? fun name => Text.lower (short name) == Text.lower t

def shortMonth? (t : Text) : Option Int :=
  (shortIndex? monthNames t).map fun index => (index : Int) + 1

def shortWeekday? (t : Text) : Option Int :=
  (shortIndex? weekdayNames t).map fun index => (index : Int)

end ZonedTime.Calendar
