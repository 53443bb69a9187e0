import ZonedTime.Pattern.Reader
import ZonedTime.Proofs.Written.Stamped

set_option autoImplicit false

namespace ZonedTime

open Error (IsParse)

namespace Pattern

theorem scanned_parse {α : Type} (scan : Scan α) (t : Text) :
    Refuses IsParse ((scanned scan).run t) :=
  Ends.mapError fun _ => rfl

theorem rfc3339_parse (t : Text) : Refuses IsParse (rfc3339.run t) := by
  change Refuses IsParse (rfc3339 t)
  unfold rfc3339
  split
  next => exact rfl
  next =>
    exact (Rfc3339.parse_ends _).bind fun _ _ => trivial

theorem item_parse (first : Item) (t : Text) : Refuses IsParse ((item first).run t) := by
  cases first with
  | literal text => exact scanned_parse _ t
  | blank text => exact scanned_parse _ t
  | number kind padding => exact scanned_parse _ t
  | form kind =>
    unfold item
    cases kind with
    | rfc3339 => exact rfc3339_parse t
    | _ => exact scanned_parse _ t

theorem gather_parse (items : List Item) (fields : Fields) (t : Text) :
    Refuses IsParse ((gather fields items).run t) := by
  induction items generalizing fields t with
  | nil => trivial
  | cons first rest ih =>
    refine (item_parse first t).bind fun (stated, after) _ => ?_
    have put : Refuses IsParse (Fields.ofIssue (fields.setAll stated)) :=
      Ends.mapError fun _ => rfl
    -- Putting the fields leaves the text as it is.
    have lifted : Refuses IsParse
        (StateT.run (liftM (Fields.ofIssue (fields.setAll stated)) : Gather Fields) after) :=
      put.bind fun _ _ => trivial
    exact lifted.bind fun (fields, after) _ => ih fields after

theorem parse_parse (t pattern : Text) : Refuses IsParse (parse t pattern) := by
  have compiled : Refuses IsParse (compile pattern) := by
    unfold compile
    split
    next => trivial
    next => exact rfl
  refine compiled.bind fun items _ => ?_
  refine (gather_parse items .empty t).bind fun (fields, rest) _ => ?_
  simp only
  split
  next => trivial
  next => exact rfl

end Pattern

end ZonedTime
