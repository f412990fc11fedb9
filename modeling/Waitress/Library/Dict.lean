import Mathlib.Data.List.Nodup

/-!
# Insertion-ordered dictionaries

Assignment replaces the value of a key in place and puts a new key last, so
that iteration is in the order of first assignment.
-/

universe u v

/-- A dictionary, listed in the order in which its keys were first assigned. -/
structure Dict (Key : Type u) (Value : Type v) where
  entries : List (Key × Value) := []
  deriving DecidableEq, Repr

namespace Dict

variable {Key : Type u} {Value : Type v} [DecidableEq Key]

def lookup (key : Key) : List (Key × Value) → Option Value
  | [] => none
  | entry :: rest => if entry.1 = key then some entry.2 else lookup key rest

def assign (key : Key) (value : Value) : List (Key × Value) → List (Key × Value)
  | [] => [(key, value)]
  | entry :: rest =>
      if entry.1 = key then (key, value) :: rest else entry :: assign key value rest

def get? (dict : Dict Key Value) (key : Key) : Option Value := lookup key dict.entries

def getD (dict : Dict Key Value) (key : Key) (default : Value) : Value :=
  (dict.get? key).getD default

def contains (dict : Dict Key Value) (key : Key) : Bool := (dict.get? key).isSome

def set (dict : Dict Key Value) (key : Key) (value : Value) : Dict Key Value :=
  ⟨assign key value dict.entries⟩

def erase (dict : Dict Key Value) (key : Key) : Dict Key Value :=
  ⟨dict.entries.filter fun entry => entry.1 ≠ key⟩

@[simp]
theorem get?_empty (key : Key) : (⟨[]⟩ : Dict Key Value).get? key = none := rfl

@[simp]
theorem get?_set (dict : Dict Key Value) (key other : Key) (value : Value) :
    (dict.set key value).get? other = if key = other then some value else dict.get? other := by
  obtain ⟨entries⟩ := dict
  simp only [get?, set]
  induction entries with
  | nil => simp [assign, lookup]
  | cons entry entries inductionHypothesis =>
      by_cases same : entry.1 = key
      · by_cases target : key = other <;> simp [assign, lookup, same, target]
      · simp only [assign, same, if_false, lookup, inductionHypothesis]
        by_cases target : key = other
        · simp [target ▸ same, target]
        · simp [target]

@[simp]
theorem get?_erase (dict : Dict Key Value) (key other : Key) :
    (dict.erase key).get? other = if key = other then none else dict.get? other := by
  obtain ⟨entries⟩ := dict
  simp only [get?, erase]
  induction entries with
  | nil => simp [lookup]
  | cons entry entries inductionHypothesis =>
      by_cases same : entry.1 = key
      · simp only [same, ne_eq, not_true_eq_false, decide_false, List.filter_cons_of_neg,
          Bool.false_eq_true, not_false_eq_true, inductionHypothesis, lookup]
        by_cases target : key = other <;> simp [target]
      · simp only [same, ne_eq, not_false_eq_true, decide_true, List.filter_cons_of_pos,
          lookup, inductionHypothesis]
        by_cases target : key = other
        · simp [target ▸ same, target]
        · simp [target]

/-! ### The entries -/

def Distinct (dict : Dict Key Value) : Prop := (dict.entries.map Prod.fst).Nodup

theorem keys_assign (key : Key) (value : Value) (entries : List (Key × Value)) :
    (assign key value entries).map Prod.fst =
      if key ∈ entries.map Prod.fst then entries.map Prod.fst
      else entries.map Prod.fst ++ [key] := by
  induction entries with
  | nil => rfl
  | cons entry entries inductionHypothesis =>
      by_cases same : entry.1 = key
      · simp [assign, same]
      · simp only [assign, if_neg same, List.map_cons, inductionHypothesis, List.mem_cons,
          Ne.symm same, false_or]
        split
        · rfl
        · rfl

omit [DecidableEq Key] in
theorem distinct_empty : (⟨[]⟩ : Dict Key Value).Distinct := List.nodup_nil

theorem Distinct.set {dict : Dict Key Value} (distinct : dict.Distinct) (key : Key)
    (value : Value) : (dict.set key value).Distinct := by
  rw [Distinct, Dict.set, keys_assign]
  split
  · exact distinct
  · rename_i new
    exact List.nodup_append_comm.mp (List.nodup_cons.mpr ⟨new, distinct⟩)

theorem Distinct.erase {dict : Dict Key Value} (distinct : dict.Distinct) (key : Key) :
    (dict.erase key).Distinct :=
  distinct.sublist (List.filter_sublist.map _)

theorem mem_entries_iff {dict : Dict Key Value} (distinct : dict.Distinct) {key : Key}
    {value : Value} : (key, value) ∈ dict.entries ↔ dict.get? key = some value := by
  obtain ⟨entries⟩ := dict
  rw [get?]
  induction entries with
  | nil => simp [lookup]
  | cons entry entries inductionHypothesis =>
      obtain ⟨notListed, others⟩ := List.nodup_cons.mp distinct
      rw [List.mem_cons, inductionHypothesis others, lookup]
      by_cases same : entry.1 = key
      · have absent : lookup key entries ≠ some value := by
          intro found
          refine notListed (same ▸ ?_)
          exact List.mem_map.mpr ⟨_, (inductionHypothesis others).mpr found, rfl⟩
        rw [if_pos same, Option.some_inj, or_iff_left absent]
        exact ⟨fun equal => (Prod.mk.inj equal).2.symm, fun equal => Prod.ext same.symm equal.symm⟩
      · rw [if_neg same]
        exact or_iff_right fun equal => same (congrArg Prod.fst equal).symm

theorem entries_set_of_get?_eq_none {dict : Dict Key Value} {key : Key}
    (new : dict.get? key = none) (value : Value) :
    (dict.set key value).entries = dict.entries ++ [(key, value)] := by
  obtain ⟨entries⟩ := dict
  change lookup key entries = none at new
  change assign key value entries = entries ++ [(key, value)]
  induction entries with
  | nil => rfl
  | cons entry entries inductionHypothesis =>
      rw [lookup] at new
      split at new
      · cases new
      · rename_i different
        rw [assign, if_neg different, inductionHypothesis new, List.cons_append]

theorem length_set_le (dict : Dict Key Value) (key : Key) (value : Value) :
    (dict.set key value).entries.length ≤ dict.entries.length + 1 := by
  have keys := congrArg List.length (keys_assign key value dict.entries)
  rw [List.length_map] at keys
  rw [Dict.set, keys]
  split
  · rw [List.length_map]
    exact Nat.le_succ _
  · rw [List.length_append, List.length_map]
    exact Nat.le_refl _

theorem length_erase_le (dict : Dict Key Value) (key : Key) :
    (dict.erase key).entries.length ≤ dict.entries.length :=
  List.length_filter_le _ _

end Dict
