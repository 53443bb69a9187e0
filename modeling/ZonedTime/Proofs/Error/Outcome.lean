import ZonedTime.Error.Basic

/-!
How operations end: well, in a value of which something holds, or badly, in an error of which
something holds. `Ends` says both at once and passes through `do` blocks.
-/

set_option autoImplicit false

namespace ZonedTime

namespace Error

/-- The errors that callers tell apart. Local times that do not come exactly once, unknown zones
and damaged data are errors of value. -/
inductive Kind where
  | overflow
  | parse
  | value
  | provider
  | file
  | size
  | type
  deriving DecidableEq, Repr

def kind : Error -> Kind
  | fieldWidth | duration | result | utcReading | localReading | shiftedDay | calendarEnd
  | noNextDay | notFinite | tooManyDays => .overflow
  | issue _ _ => .parse
  | noStart _ | zoneOffset _ _ => .provider
  | noFile => .file
  | packedSize => .size
  | unsupported => .type
  | _ => .value

def IsParse (error : Error) : Prop := error.kind = .parse

def IsRefusal (error : Error) : Prop :=
  error.kind = .overflow ∨ error.kind = .parse ∨ error.kind = .value

instance (error : Error) : Decidable error.IsRefusal := by
  unfold IsRefusal
  infer_instance

theorem IsParse.isRefusal {error : Error} (parse : error.IsParse) : error.IsRefusal :=
  .inr (.inl parse)

end Error

section

variable {ε α β : Type}

def Ends (good : α -> Prop) (allowed : ε -> Prop) : Except ε α -> Prop
  | .ok a => good a
  | .error error => allowed error

abbrev Refuses (allowed : ε -> Prop) : Except ε α -> Prop := Ends (fun _ => True) allowed

abbrev Gives (good : α -> Prop) : Except ε α -> Prop := Ends good (fun _ => True)

theorem gives_any (result : Except ε α) : Gives (fun _ => True) result := by
  cases result with
  | ok a => trivial
  | error error => trivial

@[simp] theorem ok_bind (a : α) (f : α -> Except ε β) :
    ((Except.ok a : Except ε α) >>= f) = f a := rfl

@[simp] theorem error_bind (error : ε) (f : α -> Except ε β) :
    ((Except.error error : Except ε α) >>= f) = .error error := rfl

@[simp] theorem pure_eq_ok (a : α) : (pure a : Except ε α) = .ok a := rfl

namespace Ends

variable {good stronger : α -> Prop} {next : β -> Prop} {allowed wider : ε -> Prop}
  {result : Except ε α}

theorem good_of_ok (ends : Ends good allowed result) {a : α} (ok : result = .ok a) : good a := by
  rw [ok] at ends
  exact ends

theorem allowed_of_error (ends : Ends good allowed result) {error : ε}
    (failed : result = .error error) : allowed error := by
  rw [failed] at ends
  exact ends

theorem bind {rest : α -> Except ε β} (first : Ends good allowed result)
    (later : ∀ a, good a → Ends next allowed (rest a)) : Ends next allowed (result >>= rest) := by
  cases result with
  | ok a => exact later a first
  | error error => exact first

theorem gives (ends : Ends good allowed result) : Gives good result := by
  cases result with
  | ok a => exact ends
  | error error => trivial

theorem of_gives (gives : Gives good result) (refuses : Refuses allowed result) :
    Ends good allowed result := by
  cases result with
  | ok a => exact gives
  | error error => exact refuses

theorem map {f : α -> β} (ends : Ends (fun a => next (f a)) allowed result) :
    Ends next allowed (result.map f) := by
  cases result with
  | ok a => exact ends
  | error error => exact ends

theorem mapError {δ : Type} {onError : ε -> δ} {accepted : δ -> Prop}
    (raised : ∀ error, accepted (onError error)) :
    Refuses accepted (result.mapError onError) := by
  cases result with
  | ok a => trivial
  | error error => exact raised error

theorem mapError_gives {δ : Type} {onError : ε -> δ} (gives : Gives good result) :
    Gives good (result.mapError onError) := by
  cases result with
  | ok a => exact gives
  | error error => trivial

theorem mapError_ends {δ : Type} {onError : ε -> δ} {accepted : δ -> Prop}
    (gives : Gives good result) (raised : ∀ error, accepted (onError error)) :
    Ends good accepted (result.mapError onError) :=
  of_gives gives.mapError_gives (mapError raised)

theorem imp {weaker : α -> Prop} (ends : Ends good allowed result)
    (wide : ∀ a, good a → weaker a) : Ends weaker allowed result := by
  cases result with
  | ok a => exact wide a ends
  | error error => exact ends

theorem widen (ends : Ends good allowed result) (wide : ∀ error, allowed error → wider error) :
    Ends good wider result := by
  cases result with
  | ok a => exact ends
  | error error => exact wide error ends

end Ends

end

end ZonedTime
