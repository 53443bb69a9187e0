import Mathlib.Data.List.Dedup
import Mathlib.Data.List.Perm.Subperm
import ZonedTime.Proofs.Error.Outcome
import ZonedTime.Store.Basic

set_option autoImplicit false

namespace ZonedTime

namespace Cache

/-- Reads and writes of the two maps, one after the other. A failure takes no write back. -/
abbrev Writes (α : Type) := ExceptT Error (StateM Cache) α

namespace Writes

def find (key : Text) : Writes (Option Loaded) :=
  modifyGet fun cache => (cache.lookup.lookup key, cache)

def insert (key : Text) (rules : Rules) : Writes Loaded :=
  modifyGet fun cache =>
    let loaded : Loaded := ⟨cache.fresh, rules⟩
    (loaded, { cache with lookup := (key, loaded) :: cache.lookup, fresh := cache.fresh + 1 })

def pop (key : Text) (other : Loaded) : Writes Loaded :=
  modifyGet fun cache =>
    ((cache.recent.lookup key).getD other,
      { cache with recent := cache.recent.filter (·.1 != key) })

def append (key : Text) (loaded : Loaded) : Writes Unit :=
  modify fun cache => { cache with recent := cache.recent ++ [(key, loaded)] }

def evict : Writes Unit :=
  modify fun cache =>
    if capacity < cache.recent.length then { cache with recent := cache.recent.drop 1 } else cache

def keep (key : Text) (loaded : Loaded) : Writes Unit := do
  append key (<- pop key loaded)
  evict

def ask (load : Text -> Except Error Rules) (key : Text) : Writes Loaded := do
  let loaded <- match <- find key with
    | some loaded => pure loaded
    | none => insert key (<- load key)
  keep key loaded
  return loaded

theorem run_keep (cache : Cache) (key : Text) (loaded : Loaded) :
    (keep key loaded).run.run cache = (.ok (), cache.withLatest key loaded) := by
  have evicted (other : Cache) : evict.run.run other =
      (.ok (), { other with recent :=
        if capacity < other.recent.length then other.recent.drop 1 else other.recent }) := by
    change (Except.ok (), if capacity < other.recent.length then _ else other) = _
    split <;> rfl
  exact evicted _

end Writes

variable {load : Text -> Except Error Rules} {cache next : Cache} {key : Text} {loaded : Loaded}

def ask (load : Text -> Except Error Rules) (key : Text) (cache : Cache) :
    Except Error Loaded × Cache :=
  match cache.get load key with
  | .ok (loaded, next) => (.ok loaded, next)
  | .error error => (.error error, cache)

theorem run_ask (load : Text -> Except Error Rules) (cache : Cache) (key : Text) :
    (Writes.ask load key).run.run cache = ask load key cache := by
  have kept (other : Cache) (loaded : Loaded) :
      (do Writes.keep key loaded; return loaded : Writes Loaded).run.run other =
        (.ok loaded, other.withLatest key loaded) := by
    rw [ExceptT.run_bind, StateT.run_bind, Writes.run_keep]
    rfl
  unfold Writes.ask Cache.ask get
  cases found : cache.lookup.lookup key with
  | some loaded =>
    have first : (Writes.find key).run.run cache = (.ok (some loaded), cache) := by
      rw [← found]
      rfl
    rw [ExceptT.run_bind, StateT.run_bind, first]
    exact kept cache loaded
  | none =>
    have first : (Writes.find key).run.run cache = (.ok none, cache) := by
      rw [← found]
      rfl
    rw [ExceptT.run_bind, StateT.run_bind, first]
    cases loading : load key with
    | ok rules => exact kept _ _
    | error error => rfl

/-- What happens to the cache: a key is asked for with the files as they are then, entries are
cleared, objects are collected but for those in use, and others come to be outside the cache. -/
inductive Act where
  | ask (load : Text -> Except Error Rules) (key : Text)
  | clear
  | clearKeys (keys : List Text)
  | collect (used : List Nat)
  | other

namespace Act

def run (cache : Cache) : Act -> Cache
  | ask load key => (cache.ask load key).2
  | clear => cache.clear
  | clearKeys keys => cache.clearKeys keys
  | collect used => cache.collect used
  | other => { cache with fresh := cache.fresh + 1 }

def uses (cache : Cache) : Act -> List Text
  | ask load key =>
    match cache.get load key with
    | .ok _ => [key]
    | .error _ => []
  | _ => []

def Clears (key : Text) : Act -> Prop
  | clear => True
  | clearKeys keys => key ∈ keys
  | _ => False

theorem ask_ok (got : cache.get load key = .ok (loaded, next)) :
    (ask load key).run cache = next ∧ (ask load key).uses cache = [key] := by
  simp [run, uses, Cache.ask, got]

theorem ask_error {error : Error} (failed : cache.get load key = .error error) :
    (ask load key).run cache = cache ∧ (ask load key).uses cache = [] := by
  simp [run, uses, Cache.ask, failed]

end Act

def runs : Cache -> List Act -> Cache
  | cache, [] => cache
  | cache, act :: rest => runs (act.run cache) rest

def uses : Cache -> List Act -> List Text
  | _, [] => []
  | cache, act :: rest => act.uses cache ++ uses (act.run cache) rest

theorem runs_append (cache : Cache) (first second : List Act) :
    runs cache (first ++ second) = runs (runs cache first) second := by
  induction first generalizing cache with
  | nil => rfl
  | cons act rest ih => exact ih (act.run cache)

section

variable {entries recent : List (Text × Loaded)} {history others : List Text}

theorem lookup_filter {kept : Text × Loaded -> Bool}
    (found : entries.lookup key = some loaded) (stays : kept (key, loaded) = true) :
    (entries.filter kept).lookup key = some loaded := by
  induction entries with
  | nil => cases found
  | cons entry rest ih =>
    obtain ⟨name, object⟩ := entry
    by_cases same : key = name
    next =>
      subst same
      simp only [List.lookup_cons, beq_self_eq_true, Option.some.injEq] at found
      subst found
      simp [stays]
    next =>
      have differs : (key == name) = false := beq_eq_false_iff_ne.mpr same
      simp only [List.lookup_cons, differs] at found
      rw [List.filter_cons]
      split
      next => simp [List.lookup_cons, differs, ih found]
      next => exact ih found

theorem dedup_use (history : List Text) (key : Text) :
    (history ++ [key]).dedup = history.dedup.filter (· != key) ++ [key] := by
  induction history with
  | nil => rfl
  | cons first rest ih =>
    rw [List.cons_append]
    by_cases member : first ∈ rest
    next =>
      rw [List.dedup_cons_of_mem (List.mem_append_left _ member), List.dedup_cons_of_mem member, ih]
    next =>
      rw [List.dedup_cons_of_notMem member]
      by_cases same : first = key
      next =>
        rw [List.dedup_cons_of_mem (by simp [same]), ih]
        simp [same]
      next =>
        rw [List.dedup_cons_of_notMem (by simp [same, member]), ih]
        simp [same]

/-- The key goes to the end; if there are too many keys then, the first one goes. -/
theorem touch_cases (bounded : recent.length ≤ capacity)
    (kept : ∀ old, recent.lookup key = some old → old = loaded) :
    ∃ gone, recent.filter (·.1 != key) ++ [(key, loaded)] = gone ++ touch recent key loaded
      ∧ (touch recent key loaded).length ≤ capacity
      ∧ (gone ≠ [] → (touch recent key loaded).length = capacity) := by
  have same : (recent.lookup key).getD loaded = loaded := by
    cases found : recent.lookup key with
    | none => rfl
    | some old => exact kept old found
  have shorter : (recent.filter (·.1 != key)).length ≤ recent.length := List.length_filter_le _ _
  simp only [touch, same]
  split
  next full =>
    rw [List.length_append, List.length_singleton] at full
    exists (recent.filter (·.1 != key) ++ [(key, loaded)]).take 1
    rw [List.take_append_drop, List.length_drop, List.length_append, List.length_singleton]
    exact ⟨rfl, by omega, fun _ => by omega⟩
  next small => exact ⟨[], rfl, by omega, fun absent => absurd rfl absent⟩

/-- What holds of a cache after uses of keys: few recent keys, in the order of their last uses, each
with the object that the lookup map has for it, and that map has for no other key. -/
structure Sound (history : List Text) (cache : Cache) : Prop where
  bounded : cache.recent.length ≤ capacity
  ordered : (cache.recent.map Prod.fst).Sublist history.dedup
  shared : ∀ entry ∈ cache.recent, cache.lookup.lookup entry.1 = some entry.2
  distinct : (cache.lookup.map fun entry => entry.2.id).Nodup
  older : ∀ entry ∈ cache.lookup, entry.2.id < cache.fresh

theorem sound_empty : Sound [] empty where
  bounded := Nat.zero_le _
  ordered := List.Sublist.refl []
  shared := List.forall_mem_nil _
  distinct := List.nodup_nil
  older := List.forall_mem_nil _

theorem Sound.keysNodup (sound : Sound history cache) : (cache.recent.map Prod.fst).Nodup :=
  sound.ordered.nodup history.nodup_dedup

theorem Sound.kept (sound : Sound history cache) {old : Loaded}
    (found : cache.recent.lookup key = some old) : cache.lookup.lookup key = some old := by
  obtain ⟨before, after, place, -⟩ := List.lookup_eq_some_iff.mp found
  apply sound.shared (key, old)
  rw [place]
  simp

theorem Sound.get_cases (sound : Sound history cache)
    (got : cache.get load key = .ok (loaded, next)) :
    ((cache.lookup.lookup key = some loaded ∧ next.lookup = cache.lookup
          ∧ next.fresh = cache.fresh)
        ∨ (cache.lookup.lookup key = none ∧ load key = .ok loaded.rules
          ∧ loaded.id = cache.fresh ∧ next.lookup = (key, loaded) :: cache.lookup
          ∧ next.fresh = cache.fresh + 1))
      ∧ next.recent.length ≤ capacity
      ∧ ∃ gone, cache.recent.filter (·.1 != key) ++ [(key, loaded)] = gone ++ next.recent
        ∧ (gone ≠ [] → next.recent.length = capacity) := by
  unfold get at got
  cases found : cache.lookup.lookup key with
  | some object =>
    rw [found] at got
    cases got
    have kept (old : Loaded) (same : cache.recent.lookup key = some old) : old = loaded := by
      simpa [found, eq_comm] using sound.kept same
    obtain ⟨gone, split, small, full⟩ := touch_cases sound.bounded kept
    exact ⟨.inl ⟨rfl, rfl, rfl⟩, small, gone, split, full⟩
  | none =>
    rw [found] at got
    cases loading : load key with
    | error error =>
      rw [loading] at got
      cases got
    | ok rules =>
      rw [loading] at got
      cases got
      have kept (old : Loaded) (same : cache.recent.lookup key = some old) :
          old = ⟨cache.fresh, rules⟩ := by
        simpa [found] using sound.kept same
      obtain ⟨gone, split, small, full⟩ := touch_cases sound.bounded kept
      exact ⟨.inr ⟨rfl, rfl, rfl, rfl, rfl⟩, small, gone, split, full⟩

theorem Sound.get (sound : Sound history cache) (got : cache.get load key = .ok (loaded, next)) :
    Sound (history ++ [key]) next := by
  obtain ⟨way, bounded, gone, split, -⟩ := sound.get_cases got
  have suffix : next.recent.Sublist (cache.recent.filter (·.1 != key) ++ [(key, loaded)]) := by
    rw [split]
    exact List.sublist_append_right gone next.recent
  have ordered : (next.recent.map Prod.fst).Sublist (history ++ [key]).dedup := by
    apply (suffix.map Prod.fst).trans
    rw [dedup_use, List.map_append]
    apply List.Sublist.append _ (List.Sublist.refl _)
    have others := sound.ordered.filter (· != key)
    rwa [List.filter_map] at others
  have listed (entry : Text × Loaded) (member : entry ∈ next.recent) :
      (entry ∈ cache.recent ∧ entry.1 ≠ key) ∨ entry = (key, loaded) := by
    simpa using suffix.subset member
  rcases way with ⟨found, lookup, fresh⟩ | ⟨missing, -, number, lookup, fresh⟩
  next =>
    refine ⟨bounded, ordered, fun entry member => ?_, lookup ▸ sound.distinct, ?_⟩
    next =>
      rw [lookup]
      rcases listed entry member with ⟨old, -⟩ | rfl
      next => exact sound.shared entry old
      next => exact found
    next =>
      rw [lookup, fresh]
      exact sound.older
  next =>
    refine ⟨bounded, ordered, fun entry member => ?_, ?_, ?_⟩
    next =>
      rw [lookup, List.lookup_cons]
      rcases listed entry member with ⟨old, differs⟩ | rfl
      next =>
        rw [beq_eq_false_iff_ne.mpr differs]
        exact sound.shared entry old
      next => rw [beq_self_eq_true]
    next =>
      rw [lookup, List.map_cons, List.nodup_cons]
      apply And.intro _ sound.distinct
      intro member
      obtain ⟨entry, old, same⟩ := List.mem_map.mp member
      rw [number] at same
      exact absurd same (Nat.ne_of_lt (sound.older entry old))
    next =>
      rw [lookup, fresh, List.forall_mem_cons]
      apply And.intro (Nat.lt_succ_of_le (Nat.le_of_eq number))
      intro entry old
      exact Nat.lt_succ_of_lt (sound.older entry old)

theorem Sound.forget (sound : Sound history cache) (listed : next.lookup.Sublist cache.lookup)
    (recent : next.recent.Sublist cache.recent) (fresh : cache.fresh ≤ next.fresh)
    (shared : ∀ entry ∈ next.recent, next.lookup.lookup entry.1 = some entry.2) :
    Sound history next where
  bounded := Nat.le_trans recent.length_le sound.bounded
  ordered := (recent.map Prod.fst).trans sound.ordered
  shared := shared
  distinct := (listed.map fun entry => entry.2.id).nodup sound.distinct
  older := fun entry member =>
    Nat.lt_of_lt_of_le (sound.older entry (listed.subset member)) fresh

theorem Sound.act (sound : Sound history cache) (act : Act) :
    Sound (history ++ act.uses cache) (act.run cache) := by
  have unused (same : act.uses cache = []) (later : Sound history (act.run cache)) :
      Sound (history ++ act.uses cache) (act.run cache) := by
    rwa [same, List.append_nil]
  cases act with
  | ask load key =>
    cases got : cache.get load key with
    | ok found =>
      obtain ⟨run, used⟩ := Act.ask_ok got
      rw [run, used]
      exact sound.get got
    | error error =>
      obtain ⟨run, used⟩ := Act.ask_error got
      apply unused used
      rwa [run]
  | clear =>
    apply unused rfl
    exact sound.forget (List.nil_sublist _) (List.nil_sublist _) (Nat.le_refl _)
      (List.forall_mem_nil _)
  | clearKeys keys =>
    apply unused rfl
    refine sound.forget List.filter_sublist List.filter_sublist (Nat.le_refl _) ?_
    intro entry member
    obtain ⟨old, stays⟩ := List.mem_filter.mp member
    exact lookup_filter (sound.shared entry old) stays
  | collect used =>
    apply unused rfl
    refine sound.forget List.filter_sublist (List.Sublist.refl _) (Nat.le_refl _) ?_
    intro entry member
    -- The objects of the recent keys are not collected.
    have alive : (used ++ cache.recent.map (·.2.id)).contains entry.2.id = true := by
      rw [List.contains_iff_mem, List.mem_append]
      exact .inr (List.mem_map.mpr ⟨entry, member, rfl⟩)
    exact lookup_filter (sound.shared entry member) alive
  | other =>
    apply unused rfl
    exact sound.forget (List.Sublist.refl _) (List.Sublist.refl _) (Nat.le_succ _) sound.shared

theorem Sound.runs (sound : Sound history cache) (acts : List Act) :
    Sound (history ++ uses cache acts) (runs cache acts) := by
  induction acts generalizing history cache with
  | nil =>
    rw [uses, List.append_nil]
    exact sound
  | cons act rest ih =>
    have later := ih (sound.act act)
    rwa [List.append_assoc] at later

/-- The key is recent, and only some others have become so after it. -/
def Follows (key : Text) (loaded : Loaded) (others : List Text) (cache : Cache) : Prop :=
  ∃ before after, cache.recent = before ++ (key, loaded) :: after
    ∧ ∀ entry ∈ after, entry.1 ∈ others

theorem kept_of_longer {before after gone kept : List (Text × Loaded)} {entry : Text × Loaded}
    (split : before ++ entry :: after = gone ++ kept)
    (longer : gone ≠ [] → after.length < kept.length) :
    ∃ between, kept = between ++ entry :: after := by
  have lengths := congrArg List.length split
  simp only [List.length_append, List.length_cons] at lengths
  have first : gone.length ≤ before.length := by
    cases gone with
    | nil => exact Nat.zero_le _
    | cons other rest =>
      have more := longer (List.cons_ne_nil other rest)
      omega
  exists before.drop gone.length
  rw [← List.drop_append_of_le_length first, split, List.drop_left]

theorem length_le_dedup {names : List Text} (distinct : names.Nodup) (among : names ⊆ others) :
    names.length ≤ others.dedup.length :=
  (List.subperm_of_subset distinct fun _ member => List.mem_dedup.mpr (among member)).length_le

theorem few_entries {entries : List (Text × Loaded)} (distinct : (entries.map Prod.fst).Nodup)
    (among : ∀ entry ∈ entries, entry.1 ≠ key ∧ entry.1 ∈ others)
    (few : (others.filter (· != key)).dedup.length < capacity) : entries.length < capacity := by
  have subset : entries.map Prod.fst ⊆ others.filter (· != key) := by
    intro name member
    obtain ⟨entry, listed, rfl⟩ := List.mem_map.mp member
    simpa [and_comm] using among entry listed
  have shorter := length_le_dedup distinct subset
  rw [List.length_map] at shorter
  exact Nat.lt_of_le_of_lt shorter few

theorem Follows.same (follows : Follows key loaded others cache) (sound : Sound history cache)
    {object : Loaded} (got : cache.get load key = .ok (object, next)) : object = loaded := by
  obtain ⟨before, after, recent, -⟩ := follows
  have known : cache.lookup.lookup key = some loaded := by
    apply sound.shared (key, loaded)
    rw [recent]
    simp
  rcases (sound.get_cases got).1 with ⟨found, -⟩ | ⟨missing, -⟩
  next => simpa [known, eq_comm] using found
  next => simp [known] at missing

theorem Follows.used (sound : Sound history cache)
    (got : cache.get load key = .ok (loaded, next)) (others : List Text) :
    Follows key loaded others next := by
  obtain ⟨-, -, gone, split, full⟩ := sound.get_cases got
  have longer (some : gone ≠ []) : ([] : List (Text × Loaded)).length < next.recent.length := by
    rw [full some]
    decide
  obtain ⟨between, place⟩ := kept_of_longer split longer
  exact ⟨between, [], place, List.forall_mem_nil _⟩

theorem Follows.passed (follows : Follows key loaded others cache) (sound : Sound history cache)
    {name : Text} {object : Loaded} (other : name ≠ key)
    (got : cache.get load name = .ok (object, next))
    (few : ((others ++ [name]).filter (· != key)).dedup.length < capacity) :
    Follows key loaded (others ++ [name]) next := by
  obtain ⟨before, after, recent, among⟩ := follows
  obtain ⟨-, -, gone, split, full⟩ := sound.get_cases got
  have stays : ((key, loaded).1 != name) = true := bne_iff_ne.mpr (Ne.symm other)
  rw [recent, List.filter_append, List.filter_cons, if_pos stays, List.append_assoc,
    List.cons_append] at split
  have distinct := sound.keysNodup
  rw [recent, List.map_append, List.map_cons] at distinct
  obtain ⟨notAgain, distinct⟩ := List.nodup_cons.mp (List.nodup_append.mp distinct).2.1
  have listed : ∀ entry ∈ after.filter (·.1 != name) ++ [(name, object)],
      entry.1 ≠ key ∧ entry.1 ∈ others ++ [name] := by
    intro entry member
    rcases List.mem_append.mp member with old | latest
    next =>
      have earlier := List.mem_of_mem_filter old
      constructor
      next =>
        intro same
        exact notAgain (List.mem_map.mpr ⟨entry, earlier, same⟩)
      next => exact List.mem_append_left _ (among entry earlier)
    next =>
      rw [List.mem_singleton.mp latest]
      exact ⟨other, List.mem_append_right _ (List.mem_singleton_self name)⟩
  have distinct : ((after.filter (·.1 != name) ++ [(name, object)]).map Prod.fst).Nodup := by
    have filtered := distinct.filter (· != name)
    rw [List.filter_map] at filtered
    rw [List.map_append, List.nodup_append]
    refine ⟨filtered, List.nodup_singleton name, ?_⟩
    rintro _ member _ latest rfl
    obtain ⟨entry, stays, rfl⟩ := List.mem_map.mp member
    have differs := List.of_mem_filter stays
    simp [List.mem_singleton.mp latest] at differs
  -- If one goes, the cache was full, and the keys from this one on are too few to fill it.
  have longer (some : gone ≠ []) :
      (after.filter (·.1 != name) ++ [(name, object)]).length < next.recent.length := by
    rw [full some]
    exact few_entries distinct listed few
  obtain ⟨between, place⟩ := kept_of_longer split longer
  exact ⟨between, _, place, fun entry member => (listed entry member).2⟩

theorem Follows.act (follows : Follows key loaded others cache) (sound : Sound history cache)
    {act : Act} (spared : ¬ act.Clears key)
    (few : ((others ++ act.uses cache).filter (· != key)).dedup.length < capacity) :
    Follows key loaded (others ++ act.uses cache) (act.run cache) := by
  have unused (same : act.uses cache = []) (later : Follows key loaded others (act.run cache)) :
      Follows key loaded (others ++ act.uses cache) (act.run cache) := by
    rwa [same, List.append_nil]
  cases act with
  | ask load name =>
    cases got : cache.get load name with
    | ok found =>
      obtain ⟨object, next⟩ := found
      obtain ⟨run, used⟩ := Act.ask_ok got
      rw [used] at few
      rw [run, used]
      by_cases same : name = key
      next =>
        subst same
        have found := follows.same sound got
        subst found
        exact Follows.used sound got _
      next => exact follows.passed sound same got few
    | error error =>
      obtain ⟨run, used⟩ := Act.ask_error got
      apply unused used
      rwa [run]
  | clear => exact absurd trivial spared
  | clearKeys keys =>
    apply unused rfl
    obtain ⟨before, after, recent, among⟩ := follows
    have stays : (!keys.contains (key, loaded).1) = true := by simpa [Act.Clears] using spared
    refine ⟨before.filter (!keys.contains ·.1), after.filter (!keys.contains ·.1), ?_, ?_⟩
    next =>
      change cache.recent.filter (!keys.contains ·.1) = _
      rw [recent, List.filter_append, List.filter_cons, if_pos stays]
    next => exact fun entry member => among entry (List.mem_of_mem_filter member)
  | collect used => exact unused rfl follows
  | other => exact unused rfl follows

theorem Follows.runs (follows : Follows key loaded others cache) (sound : Sound history cache)
    {acts : List Act} (spared : ∀ act ∈ acts, ¬ act.Clears key)
    (few : ((others ++ uses cache acts).filter (· != key)).dedup.length < capacity) :
    Follows key loaded (others ++ uses cache acts) (runs cache acts) := by
  induction acts generalizing others history cache with
  | nil =>
    rw [uses, List.append_nil]
    exact follows
  | cons act rest ih =>
    obtain ⟨here, later⟩ := List.forall_mem_cons.mp spared
    rw [uses, ← List.append_assoc] at few ⊢
    -- The keys used up to here are among all that are used.
    have fewer : ((others ++ act.uses cache).filter (· != key)).dedup.length < capacity := by
      apply Nat.lt_of_le_of_lt _ few
      apply length_le_dedup (List.nodup_dedup _)
      intro name member
      rw [List.filter_append]
      exact List.mem_append_left _ (List.mem_dedup.mp member)
    exact ih (follows.act sound here fewer) (sound.act act) later few

/-- Whatever happens to a cache, its recent keys are at most eight, in the order of their last uses,
and each has the object of the lookup map, which is the object of no other key. A key that is used
keeps its object among them until it is cleared or eight other keys are used after it. A key of the
lookup map has its object again without a load, and a failure leaves both maps as they are. -/
theorem runs_recent (acts : List Act) :
    let cache := runs empty acts
    cache.recent.length ≤ 8
      ∧ (cache.recent.map Prod.fst).Sublist (uses empty acts).dedup
      ∧ (∀ entry ∈ cache.recent, cache.lookup.lookup entry.1 = some entry.2
        ∧ ∀ other ∈ cache.lookup, other.2.id = entry.2.id → other = entry)
      ∧ (∀ load key loaded next, cache.get load key = .ok (loaded, next) → ∀ later : List Act,
        (∀ act ∈ later, ¬ act.Clears key)
          → ((uses next later).filter (· != key)).dedup.length < 8
          → (key, loaded) ∈ (runs next later).recent)
      ∧ (∀ key loaded, cache.lookup.lookup key = some loaded → ∀ load, ∃ next,
        cache.get load key = .ok (loaded, next) ∧ next.lookup = cache.lookup)
      ∧ ∀ load key error after,
        (Writes.ask load key).run.run cache = (.error error, after) → after = cache := by
  have sound : Sound (uses empty acts) (runs empty acts) := by
    simpa using sound_empty.runs acts
  refine ⟨sound.bounded, sound.ordered, ?_, ?_, ?_, ?_⟩
  next =>
    intro entry recent
    have found := sound.shared entry recent
    apply And.intro found
    intro other listed same
    obtain ⟨before, after, place, -⟩ := List.lookup_eq_some_iff.mp found
    have member : entry ∈ (runs empty acts).lookup := by
      rw [place]
      simp
    exact List.inj_on_of_nodup_map sound.distinct listed member same
  next =>
    intro load key loaded next got later spared few
    have follows : Follows key loaded ([] ++ uses next later) (runs next later) :=
      (Follows.used sound got []).runs (sound.get got) spared few
    obtain ⟨before, after, recent, -⟩ := follows
    rw [recent]
    simp
  next =>
    intro key loaded found load
    exists (runs empty acts).withLatest key loaded
    simp [get, found, withLatest]
  next =>
    intro load key error after failed
    rw [run_ask, ask] at failed
    split at failed
    next => cases failed
    next =>
      cases failed
      rfl

def letterZone (key : Text) : Except Error Rules :=
  if key.length = 1 then .ok (.ofTransitions (some key) ⟨0, key⟩ [] none)
  else .error (.unknownZone key)

def asks (keys : String) : List Act := keys.toList.map fun c => .ask letterZone [c]

def busy : List Act := asks "abcdefgahij" ++ [.clearKeys [['g'], ['z']], .ask letterZone []]

def crowd : List Act := asks "nopqn" ++ [.ask letterZone [], .collect []] ++ asks "rsto"

def fifth : Loaded := ⟨4, .ofTransitions (some ['e']) ⟨0, ['e']⟩ [] none⟩

def afterFifth : Cache := (runs empty busy).withLatest ['e'] fifth

theorem runs_recent_crowd :
    (runs empty busy).recent.map Prod.fst = [['d'], ['e'], ['f'], ['a'], ['h'], ['i'], ['j']]
      ∧ (uses empty busy).dedup =
        [['b'], ['c'], ['d'], ['e'], ['f'], ['g'], ['a'], ['h'], ['i'], ['j']]
      ∧ (runs empty busy).get letterZone ['e'] = .ok (fifth, afterFifth)
      ∧ ((uses afterFifth crowd).filter (· != ['e'])).dedup.length = 7
      ∧ (['e'], fifth) ∈ (runs afterFifth crowd).recent := by
  have used : (runs empty busy).get letterZone ['e'] = .ok (fifth, afterFifth) := rfl
  have few : ((uses afterFifth crowd).filter (· != ['e'])).dedup.length = 7 := by decide
  have spared : ∀ act ∈ crowd, ¬ act.Clears ['e'] := by
    intro act member
    simp only [crowd, asks, List.mem_append, List.mem_map, List.mem_cons] at member
    rcases member with (⟨_, -, rfl⟩ | rfl | rfl | none) | ⟨_, -, rfl⟩
    next => exact id
    next => exact id
    next => exact id
    next => cases none
    next => exact id
  obtain ⟨-, -, -, stays, -⟩ := runs_recent busy
  refine ⟨by decide, by decide, used, few, ?_⟩
  exact stays letterZone ['e'] fifth afterFifth used crowd spared (by rw [few]; decide)

end

end Cache

end ZonedTime
