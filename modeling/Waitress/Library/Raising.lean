import Mathlib.Order.Defs.Unbundled

/-!
# Stateful computations that may raise

An exception leaves the assignments that were made before it.  `exec` runs a
computation; a proof about one peels its binds off with the equations, or with
the rule `exec_bind_ok` when the result is known.
-/

/-- A computation on a mutable state that may raise an exception. -/
abbrev Raising (Exc State : Type) := ExceptT Exc (StateM State)

namespace Raising

variable {Exc State Value Next : Type}

/-- The results of a list are its values if none of them is an exception. -/
theorem mapM_eq_ok_iff {Item : Type} (read : Item → Except Exc Value) (items : List Item)
    (values : List Value) : items.mapM read = .ok values ↔ items.map read = values.map .ok := by
  induction items generalizing values with
  | nil =>
      cases values with
      | nil => exact ⟨fun _ => rfl, fun _ => rfl⟩
      | cons value values =>
          constructor
          · rintro ⟨⟩
          · rintro ⟨⟩
  | cons item items inductionHypothesis =>
      rw [List.mapM_cons]
      cases first : read item with
      | error exc =>
          cases values with
          | nil =>
              constructor
              · rintro ⟨⟩
              · rintro ⟨⟩
          | cons value values =>
              rw [List.map_cons, List.map_cons, first]
              constructor
              · rintro ⟨⟩
              · intro same
                cases (List.cons.inj same).1
      | ok value =>
          have sequence : (do
              let value ← Except.ok value
              let rest ← items.mapM read
              pure (value :: rest) : Except Exc (List Value)) =
              (items.mapM read).map (value :: ·) := by
            cases items.mapM read <;> rfl
          rw [sequence, List.map_cons, first]
          constructor
          · intro mapped
            cases rest : items.mapM read with
            | error exc =>
                rw [rest] at mapped
                cases mapped
            | ok others =>
                rw [rest] at mapped
                cases mapped
                rw [(inductionHypothesis others).mp rest]
                rfl
          · intro same
            cases values with
            | nil => cases same
            | cons other values =>
                obtain ⟨head, tail⟩ := List.cons.inj same
                cases head
                rw [(inductionHypothesis values).mpr tail]
                rfl

theorem exists_mapM_eq_ok_iff {Item : Type} (read : Item → Except Exc Value)
    (items : List Item) :
    (∃ values, items.mapM read = .ok values) ↔ ∀ item ∈ items, ∃ value, read item = .ok value := by
  simp only [mapM_eq_ok_iff]
  constructor
  · rintro ⟨values, mapped⟩ item mem
    have listed : read item ∈ values.map Except.ok := mapped ▸ List.mem_map_of_mem mem
    obtain ⟨value, -, same⟩ := List.mem_map.mp listed
    exact ⟨value, same.symm⟩
  · intro each
    induction items with
    | nil => exact ⟨[], rfl⟩
    | cons item items inductionHypothesis =>
        obtain ⟨value, first⟩ := each item List.mem_cons_self
        obtain ⟨values, rest⟩ := inductionHypothesis fun other mem =>
          each other (List.mem_cons_of_mem item mem)
        exact ⟨value :: values, by rw [List.map_cons, List.map_cons, first, rest]⟩

def exec (action : Raising Exc State Value) (state : State) : Except Exc Value × State :=
  (ExceptT.run action).run state

@[simp]
theorem exec_pure (value : Value) (state : State) :
    exec (pure value : Raising Exc State Value) state = (.ok value, state) := rfl

@[simp]
theorem exec_throw (exc : Exc) (state : State) :
    exec (throw exc : Raising Exc State Value) state = (.error exc, state) := rfl

@[simp]
theorem exec_get (state : State) :
    exec (get : Raising Exc State State) state = (.ok state, state) := rfl

@[simp]
theorem exec_modify (update : State → State) (state : State) :
    exec (modify update : Raising Exc State PUnit) state = (.ok ⟨⟩, update state) := rfl

theorem exec_bind (action : Raising Exc State Value) (next : Value → Raising Exc State Next)
    (state : State) :
    exec (action >>= next) state =
      match exec action state with
      | (.ok value, after) => exec (next value) after
      | (.error exc, after) => (.error exc, after) := by
  change exec (ExceptT.mk (StateT.bind (ExceptT.run action) (ExceptT.bindCont next))) state = _
  simp only [exec, ExceptT.run, ExceptT.mk, StateT.run, StateT.bind]
  rcases outcome : action state with ⟨_ | _, after⟩ <;> rfl

theorem exec_get_bind (next : State → Raising Exc State Next) (state : State) :
    exec (get >>= next) state = exec (next state) state := by
  rw [exec_bind, exec_get]

theorem exec_modify_bind (update : State → State) (next : PUnit → Raising Exc State Next)
    (state : State) :
    exec (modify update >>= next) state = exec (next ⟨⟩) (update state) := by
  rw [exec_bind, exec_modify]

theorem exec_tryCatch (action : Raising Exc State Value)
    (handler : Exc → Raising Exc State Value) (state : State) :
    exec (tryCatch action handler) state =
      match exec action state with
      | (.ok value, after) => (.ok value, after)
      | (.error exc, after) => exec (handler exc) after := by
  change exec (ExceptT.tryCatch action handler) state = _
  simp only [exec, ExceptT.tryCatch, ExceptT.run, ExceptT.mk, StateT.run]
  change StateT.bind action _ state = _
  simp only [StateT.bind]
  rcases outcome : action state with ⟨_ | _, after⟩ <;> rfl

@[simp]
theorem exec_ofExcept (result : Except Exc Value) (state : State) :
    exec (MonadExcept.ofExcept result : Raising Exc State Value) state = (result, state) := by
  cases result <;> rfl

theorem exec_bind_ok {action : Raising Exc State Value} {next : Value → Raising Exc State Next}
    {state final : State} {value : Next}
    (result : exec (action >>= next) state = (.ok value, final)) :
    ∃ first middle, exec action state = (.ok first, middle) ∧
      exec (next first) middle = (.ok value, final) := by
  rw [exec_bind] at result
  rcases outcome : exec action state with ⟨_ | first, middle⟩
  · rw [outcome] at result
    exact absurd (congrArg Prod.fst result) (by simp)
  · rw [outcome] at result
    exact ⟨first, middle, rfl, result⟩

theorem exec_bind_error {action : Raising Exc State Value} {next : Value → Raising Exc State Next}
    {state : State} {exc : Exc} (failed : (exec action state).1 = .error exc) :
    (exec (action >>= next) state).1 = .error exc := by
  rw [exec_bind]
  rcases outcome : exec action state with ⟨raised | _, middle⟩
  · rw [outcome] at failed
    cases failed
    rfl
  · rw [outcome] at failed
    cases failed

/-! ### Relations that every outcome respects -/

def Within (relation : State → State → Prop) (action : Raising Exc State Value) : Prop :=
  ∀ state, relation state (exec action state).2

section Rules

variable {relation : State → State → Prop} [IsPreorder State relation]

theorem within_pure (value : Value) :
    Within relation (pure value : Raising Exc State Value) :=
  fun state => refl state

theorem within_throw (exc : Exc) : Within relation (throw exc : Raising Exc State Value) :=
  fun state => refl state

theorem within_throw_bind (exc : Exc) {next : Value → Raising Exc State Next} :
    Within relation ((throw exc : Raising Exc State Value) >>= next) := by
  intro state
  rw [exec_bind, exec_throw]
  exact refl state

theorem within_get : Within relation (get : Raising Exc State State) :=
  fun state => refl state

theorem within_ofExcept (result : Except Exc Value) :
    Within relation (MonadExcept.ofExcept result : Raising Exc State Value) :=
  fun state => by rw [exec_ofExcept]; exact refl state

omit [IsPreorder State relation] in
theorem within_modify {update : State → State} (steps : ∀ state, relation state (update state)) :
    Within relation (modify update : Raising Exc State PUnit) := steps

theorem within_bind {action : Raising Exc State Value} {next : Value → Raising Exc State Next}
    (first : Within relation action) (rest : ∀ value, Within relation (next value)) :
    Within relation (action >>= next) := by
  intro state
  have start := first state
  rw [exec_bind]
  rcases outcome : exec action state with ⟨_ | value, middle⟩
  · rw [outcome] at start
    exact start
  · rw [outcome] at start
    exact IsTrans.trans _ _ _ start (rest value middle)

theorem within_tryCatch {action : Raising Exc State Value}
    {handler : Exc → Raising Exc State Value} (body : Within relation action)
    (handling : ∀ exc, Within relation (handler exc)) :
    Within relation (tryCatch action handler) := by
  intro state
  have start := body state
  rw [exec_tryCatch]
  rcases outcome : exec action state with ⟨exc | value, middle⟩
  · rw [outcome] at start
    exact IsTrans.trans _ _ _ start (handling exc middle)
  · rw [outcome] at start
    exact start

omit [IsPreorder State relation] in
/-- What follows a look at the state may rely on what it saw. -/
theorem within_get_bind {next : State → Raising Exc State Value}
    (rest : ∀ state, relation state (exec (next state) state).2) :
    Within relation (get >>= next) := by
  intro state
  rw [exec_get_bind]
  exact rest state

/-- What follows a result may rely on where it comes from. -/
theorem within_ofExcept_bind {result : Except Exc Value} {next : Value → Raising Exc State Next}
    (rest : ∀ value, result = .ok value → Within relation (next value)) :
    Within relation (MonadExcept.ofExcept result >>= next) := by
  intro state
  rw [exec_bind, exec_ofExcept]
  cases result with
  | ok value => exact rest value rfl state
  | error exc => exact refl state

theorem within_forM {Item : Type} (items : List Item) {action : Item → Raising Exc State PUnit}
    (each : ∀ item ∈ items, Within relation (action item)) :
    Within relation (forM items action) := by
  induction items with
  | nil => exact within_pure _
  | cons item items inductionHypothesis =>
      rw [List.forM_cons]
      refine within_bind (each item (List.mem_cons_self ..)) fun _ => ?_
      exact inductionHypothesis fun other mem => each other (List.mem_cons_of_mem _ mem)

end Rules

/-- Two states that look the same. -/
def SameView {View : Type} (view : State → View) (before after : State) : Prop :=
  view before = view after

instance {View : Type} (view : State → View) : IsPreorder State (SameView view) where
  refl _ := rfl
  trans _ _ _ first second := Eq.trans first second

def Keeps (predicate : State → Prop) (before after : State) : Prop :=
  predicate before → predicate after

instance (predicate : State → Prop) : IsPreorder State (Keeps predicate) where
  refl _ := id
  trans _ _ _ first second := second ∘ first

/-! ### The exceptions that may leave a computation -/

def RaisesOnly (allowed : Exc → Prop) (action : Raising Exc State Value) : Prop :=
  ∀ state exc final, exec action state = (.error exc, final) → allowed exc

section Exceptions

variable {allowed : Exc → Prop}

theorem raisesOnly_pure (value : Value) :
    RaisesOnly allowed (pure value : Raising Exc State Value) := by
  intro state exc final result
  cases (Prod.mk.inj result).1

theorem raisesOnly_throw {exc : Exc} (isAllowed : allowed exc) :
    RaisesOnly allowed (throw exc : Raising Exc State Value) := by
  intro state exc final result
  cases (Prod.mk.inj result).1
  exact isAllowed

theorem raisesOnly_get : RaisesOnly allowed (get : Raising Exc State State) := by
  intro state exc final result
  cases (Prod.mk.inj result).1

theorem raisesOnly_modify (update : State → State) :
    RaisesOnly allowed (modify update : Raising Exc State PUnit) := by
  intro state exc final result
  cases (Prod.mk.inj result).1

theorem raisesOnly_ofExcept {result : Except Exc Value}
    (only : ∀ exc, result = .error exc → allowed exc) :
    RaisesOnly allowed (MonadExcept.ofExcept result : Raising Exc State Value) := by
  intro state exc final outcome
  rw [exec_ofExcept] at outcome
  exact only exc (Prod.mk.inj outcome).1

theorem raisesOnly_bind {action : Raising Exc State Value}
    {next : Value → Raising Exc State Next} (first : RaisesOnly allowed action)
    (rest : ∀ value, RaisesOnly allowed (next value)) : RaisesOnly allowed (action >>= next) := by
  intro state exc final result
  rw [exec_bind] at result
  rcases outcome : exec action state with ⟨raised | value, middle⟩
  · rw [outcome] at result
    cases (Prod.mk.inj result).1
    exact first state exc middle outcome
  · rw [outcome] at result
    exact rest value middle exc final result

theorem raisesOnly_forM {Item : Type} (items : List Item) {action : Item → Raising Exc State PUnit}
    (each : ∀ item ∈ items, RaisesOnly allowed (action item)) :
    RaisesOnly allowed (forM items action) := by
  induction items with
  | nil => exact raisesOnly_pure _
  | cons item items inductionHypothesis =>
      rw [List.forM_cons]
      refine raisesOnly_bind (each item (List.mem_cons_self ..)) fun _ => ?_
      exact inductionHypothesis fun other mem => each other (List.mem_cons_of_mem _ mem)

end Exceptions

end Raising
