import ZonedTime.Proofs.Text.Numeral
import ZonedTime.Zone.Yearly

/-!
The language of yearly rules, word by word, each with what it stands for.

    zone   = name offset [name [offset] ',' change ',' change]
    name   = three or more letters | '<' one or more characters other than '>' '>'
    clock  = ['+' | '-'] h[h[h]] [':' mm [':' ss]]
    offset = clock, up to 24 hours and less than a day, counted to the west
    day    = 'M' m[m] '.' w '.' d | 'J' n[n[n]] | n[n[n]]
    change = day ['/' clock, up to 167 hours]

Letters and characters are those of ASCII. Without a time a change comes at 2 o'clock, and without
an offset of its own daylight saving time is an hour ahead of standard time.
-/

set_option autoImplicit false

namespace ZonedTime.RuleWord

open Text (isAscii isDigits)

structure Numeral (most : Nat) (w : Text) (n : Nat) : Prop where
  digits : isDigits w = true
  filled : w ≠ []
  short : w.length ≤ most
  value : Text.value w = n

structure Sixty (w : Text) (n : Nat) : Prop where
  digits : isDigits w = true
  two : w.length = 2
  value : Text.value w = n
  inRange : n ≤ 59

inductive WithinHour : Text -> Nat -> Prop where
  | none : WithinHour [] 0
  | minutes {m : Text} {minutes : Nat} (minute : Sixty m minutes) :
      WithinHour (':' :: m) (minutes * 60)
  | seconds {m s : Text} {minutes seconds : Nat} (minute : Sixty m minutes)
      (second : Sixty s seconds) :
      WithinHour (':' :: m ++ ':' :: s) (minutes * 60 + seconds)

inductive Sign : Text -> Bool -> Prop where
  | none : Sign [] false
  | plus : Sign ['+'] false
  | minus : Sign ['-'] true

inductive Clock (mostHours : Nat) : Text -> Int -> Prop where
  | signed {s h m : Text} {negative : Bool} {hours later : Nat} (sign : Sign s negative)
      (hour : Numeral 3 h hours) (inRange : hours ≤ mostHours) (within : WithinHour m later) :
      Clock mostHours (s ++ h ++ m)
        (if negative then -((hours * 3600 + later : Nat) : Int)
          else ((hours * 3600 + later : Nat) : Int))

/-- An offset to the west in seconds to the east. -/
inductive Offset : Text -> Int -> Prop where
  | west {w : Text} {seconds : Int} (clock : Clock 24 w seconds)
      (withinDay : seconds.natAbs < 86400) : Offset w (-seconds)

inductive Name : Text -> Text -> Prop where
  | plain {name : Text} (letters : ∀ c ∈ name, c.isAlpha = true) (long : 3 ≤ name.length) :
      Name name name
  | quoted {name : Text} (filled : name ≠ []) (ascii : isAscii name = true)
      (inside : '>' ∉ name) : Name ('<' :: name ++ ['>']) name

inductive MonthDay : Text -> Nat -> Nat -> Nat -> Prop where
  | dotted {m k d : Text} {month week weekday : Nat} (monthWord : Numeral 2 m month)
      (inYear : 1 ≤ month ∧ month ≤ 12) (weekWord : Numeral 1 k week)
      (inMonth : 1 ≤ week ∧ week ≤ 5) (weekdayWord : Numeral 1 d weekday) (inWeek : weekday ≤ 6) :
      MonthDay (m ++ '.' :: k ++ '.' :: d) month week weekday

inductive Day : Text -> ChangeDay -> Prop where
  -- The fifth week is the last one, also of a month that has only four such days.
  | last {w : Text} {month weekday : Nat} (word : MonthDay w month 5 weekday) :
      Day ('M' :: w) (.last month weekday)
  | nth {w : Text} {month week weekday : Nat} (word : MonthDay w month week weekday)
      (counted : week ≠ 5) : Day ('M' :: w) (.nth month week weekday)
  | julian {w : Text} {n : Nat} (numeral : Numeral 3 w n) (inYear : 1 ≤ n ∧ n ≤ 365) :
      Day ('J' :: w) (.julian n)
  -- Counted from 0, while days of the year are kept from 1 on.
  | yearDay {w : Text} {n : Nat} (numeral : Numeral 3 w n) (inYear : n ≤ 365) :
      Day w (.yearDay (n + 1))

inductive ChangeTime : Text -> Int -> Prop where
  | standard : ChangeTime [] 7200
  | written {w : Text} {seconds : Int} (clock : Clock 167 w seconds) : ChangeTime ('/' :: w) seconds

inductive Change : Text -> ZonedTime.Change -> Prop where
  | timed {d w : Text} {day : ChangeDay} {time : Int} (dayWord : Day d day)
      (timeWord : ChangeTime w time) : Change (d ++ w) ⟨day, time⟩

inductive DaylightOffset (standard : Int) : Text -> Int -> Prop where
  | hourAhead (withinDay : standard + 3600 < 86400) : DaylightOffset standard [] (standard + 3600)
  | written {w : Text} {offset : Int} (offsetWord : Offset w offset) :
      DaylightOffset standard w offset

inductive Daylight (standard : Int) : Text -> ZonedTime.Daylight -> Prop where
  | changes {n w s e : Text} {name : Text} {offset : Int} {start stop : ZonedTime.Change}
      (nameWord : Name n name) (offsetWord : DaylightOffset standard w offset)
      (startWord : Change s start) (stopWord : Change e stop) :
      Daylight standard (n ++ w ++ ',' :: s ++ ',' :: e) { offset, name, start, stop }

inductive Zone : Text -> Yearly -> Prop where
  | constant {n w : Text} {name : Text} {standard : Int} (nameWord : Name n name)
      (offsetWord : Offset w standard) : Zone (n ++ w) { standard, name, daylight := none }
  | seasonal {n w d : Text} {name : Text} {standard : Int} {daylight : ZonedTime.Daylight}
      (nameWord : Name n name) (offsetWord : Offset w standard)
      (daylightWord : Daylight standard d daylight) :
      Zone (n ++ w ++ d) { standard, name, daylight := some daylight }

end ZonedTime.RuleWord
