import ZonedTime.Proofs.Store.Recency

set_option autoImplicit false

namespace ZonedTime

namespace Store

open Cache (Act runs runs_append)

def Moves (before after : Cache) : Prop := ∃ acts : List Act, after = runs before acts

namespace Moves

theorem refl (cache : Cache) : Moves cache cache := ⟨[], rfl⟩

theorem trans {first second third : Cache} (one : Moves first second)
    (other : Moves second third) : Moves first third := by
  obtain ⟨acts, rfl⟩ := one
  obtain ⟨more, rfl⟩ := other
  exact ⟨acts ++ more, (runs_append first acts more).symm⟩

theorem act (cache : Cache) (act : Act) : Moves cache (act.run cache) := ⟨[act], rfl⟩

end Moves

section

variable (store : Store)

theorem fetch_moves (key : Text) : Moves store.cache (fetch key store).2.cache := by
  have asked := Moves.act store.cache (.ask store.load key)
  unfold Act.run Cache.ask at asked
  unfold fetch
  cases got : store.cache.get store.load key with
  | ok found => simpa [got] using asked
  | error error => exact .refl _

theorem own_moves (rules : Except Error Rules) : Moves store.cache (own rules store).2.cache := by
  cases rules with
  | ok rules => exact .act store.cache .other
  | error error => exact .refl _

theorem readSetting_moves (setting : Setting) :
    Moves store.cache (readSetting setting store).2.cache := by
  cases setting with
  | key name => exact store.fetch_moves name
  | file path => exact store.own_moves _
  | keyOrRule text =>
    have fetched := store.fetch_moves text
    unfold readSetting
    simp only
    split
    next key after same =>
      rw [same] at fetched
      exact fetched.trans (after.own_moves _)
    next => exact fetched

theorem readSystem_moves : Moves store.cache (readSystem store).2.cache := by
  unfold readSystem
  split
  next => exact store.readSetting_moves _
  next => exact .refl _

theorem resetSystem_moves : Moves store.cache (resetSystem store).2.cache := by
  have read := store.readSystem_moves
  unfold resetSystem
  split
  next same =>
    rw [same] at read
    exact read
  next => exact read

theorem systemZone_moves : Moves store.cache (systemZone store).2.cache := by
  unfold systemZone
  split
  next => exact .refl _
  next => exact store.resetSystem_moves

theorem apply_moves (step : Step) : Moves store.cache (store.apply step).2.cache := by
  cases step with
  | get key => exact store.fetch_moves key
  | hold name key =>
    have fetched := store.fetch_moves key
    unfold apply
    simp only
    split
    next same =>
      rw [same] at fetched
      exact fetched
    next same =>
      rw [same] at fetched
      exact fetched
  | clear => exact .act store.cache .clear
  | clearKeys keys => exact .act store.cache (.clearKeys keys)
  | resetSystem => exact store.resetSystem_moves
  | system => exact store.systemZone_moves
  | reload key =>
    have fetched := store.fetch_moves key
    unfold apply
    simp only
    split
    next after same =>
      rw [same] at fetched
      exact fetched.trans (after.fetch_moves key)
    next same =>
      rw [same] at fetched
      exact fetched
  | assume key wall choice => exact store.fetch_moves key
  | remove path =>
    unfold apply
    simp only
    split <;> exact .refl _
  | search folders =>
    unfold apply
    simp only
    split <;> exact .refl _
  | setting =>
    unfold apply
    simp only
    split <;> exact .refl _
  | _ => exact .refl _

theorem run_moves (step : Step) : Moves store.cache (store.run step).2.cache := by
  have applied := store.apply_moves step
  exact applied.trans (.act _ (.collect _))

end

def after : Store -> List Step -> Store
  | store, [] => store
  | store, step :: rest => after (store.run step).2 rest

theorem after_moves (store : Store) (steps : List Step) :
    Moves store.cache (store.after steps).cache := by
  induction steps generalizing store with
  | nil => exact .refl _
  | cons step rest ih => exact (store.run_moves step).trans (ih _)

/-- So after any steps the recent keys of the store are few and in the order of their last uses, and
share their objects with the lookup map. -/
theorem after_sound (steps : List Step) :
    ∃ acts, (empty.after steps).cache = runs .empty acts
      ∧ Cache.Sound (Cache.uses .empty acts) (empty.after steps).cache := by
  obtain ⟨acts, same⟩ := empty.after_moves steps
  have sound := Cache.sound_empty.runs acts
  rw [List.nil_append] at sound
  exact ⟨acts, same, by rwa [same]⟩

end Store

end ZonedTime
