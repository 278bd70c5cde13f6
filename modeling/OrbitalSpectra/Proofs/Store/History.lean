import Mathlib.Data.List.Induction
import OrbitalSpectra.Store

set_option autoImplicit false

namespace OrbitalSpectra

structure Insertion (α : Type) where
  name : String
  estimator : Estimator
  index : Nat
  blocks : List (Array α)

namespace Insertion

variable {α β : Type}

def map (f : α → β) (x : Insertion α) : Insertion β :=
  { x with blocks := x.blocks.map fun block => block.map f }

-- The blocks of the last insertion at one name, estimator and index.
def lastAt (history : List (Insertion α)) (name : String) (estimator : Estimator) (index : Nat) :
    Option (List (Array α)) :=
  (history.reverse.find? fun x => x.name = name ∧ x.estimator = estimator ∧ x.index = index).map blocks

def largestIndex? (history : List (Insertion α)) (name : String) (estimator : Estimator) : Option Nat :=
  ((history.filter fun x => x.name = name ∧ x.estimator = estimator).map index).max?

def held (history : List (Insertion α)) (name : String) (estimator : Estimator) :
    Option Nat → Option (List (Array α))
  | some index => lastAt history name estimator index
  | none => (largestIndex? history name estimator).bind (lastAt history name estimator)

theorem last_at_append (history : List (Insertion α)) (x : Insertion α) (name : String)
    (estimator : Estimator) (index : Nat) :
    lastAt (history ++ [x]) name estimator index =
      if x.name = name ∧ x.estimator = estimator ∧ x.index = index then some x.blocks
      else lastAt history name estimator index := by
  by_cases last : x.name = name ∧ x.estimator = estimator ∧ x.index = index
  · simp [lastAt, last]
  · rw [if_neg last]
    simp only [lastAt, List.reverse_append, List.reverse_singleton, List.singleton_append]
    rw [List.find?_cons_of_neg (by simpa using last)]

theorem last_at_some_iff (history : List (Insertion α)) (name : String) (estimator : Estimator) (index : Nat) :
    (lastAt history name estimator index).isSome ↔
      index ∈ (history.filter fun x => x.name = name ∧ x.estimator = estimator).map Insertion.index := by
  simp only [lastAt, Option.isSome_map, List.find?_isSome, List.mem_reverse, List.mem_map, List.mem_filter,
    decide_eq_true_eq]
  constructor
  · rintro ⟨x, member, name, estimator, index⟩
    exact ⟨x, ⟨member, name, estimator⟩, index⟩
  · rintro ⟨x, ⟨member, name, estimator⟩, index⟩
    exact ⟨x, member, name, estimator, index⟩

theorem held_map (f : α → β) (history : List (Insertion α)) (name : String) (estimator : Estimator)
    (path : Option Nat) :
    held (history.map (map f)) name estimator path =
      (held history name estimator path).map fun blocks => blocks.map fun block => block.map f := by
  have last (index : Nat) : lastAt (history.map (map f)) name estimator index =
      (lastAt history name estimator index).map fun blocks => blocks.map fun block => block.map f := by
    simp only [lastAt, ← List.map_reverse, List.find?_map, Option.map_map]
    rfl
  have largest : largestIndex? (history.map (map f)) name estimator = largestIndex? history name estimator := by
    simp only [largestIndex?, List.filter_map, List.map_map]
    rfl
  cases path with
  | some index => exact last index
  | none =>
      simp only [held, largest]
      cases largestIndex? history name estimator with
      | none => rfl
      | some index => exact last index

end Insertion

namespace Paths

variable {R : Type}

def Increasing (paths : Paths R) : Prop := paths.Pairwise fun a b => a.1 < b.1

theorem get_cons (i : Nat) (held : List (Block R)) (rest : Paths R) (index : Nat) :
    Paths.get? ((i, held) :: rest) index = if i = index then some held else Paths.get? rest index := by
  by_cases first : i = index <;> simp [get?, first]

theorem insert_get (paths : Paths R) (index other : Nat) (blocks : List (Block R)) :
    Paths.get? (Paths.insert index blocks paths) other =
      if index = other then some blocks else Paths.get? paths other := by
  induction paths with
  | nil => rw [insert, get_cons]
  | cons path rest ih =>
      obtain ⟨i, held⟩ := path
      by_cases before : index < i
      · rw [insert, if_pos before, get_cons]
      · by_cases here : index = i
        · subst here
          rw [insert, if_neg before, if_pos rfl, get_cons, get_cons]
          by_cases same : index = other <;> simp [same]
        · rw [insert, if_neg before, if_neg here, get_cons, get_cons, ih]
          by_cases first : i = other
          · have different : ¬ index = other := fun same => here (same.trans first.symm)
            simp [first, different]
          · simp [first]

theorem insert_indices (paths : Paths R) (index : Nat) (blocks : List (Block R)) (i : Nat)
    (inside : i ∈ (Paths.insert index blocks paths).map Prod.fst) : i = index ∨ i ∈ paths.map Prod.fst := by
  induction paths with
  | nil => simpa [insert] using inside
  | cons path rest ih =>
      obtain ⟨j, held⟩ := path
      by_cases before : index < j
      · simpa [insert, before] using inside
      · by_cases here : index = j
        · simp [insert, here] at inside
          rcases inside with rfl | later
          · exact Or.inl here.symm
          · exact Or.inr (by simpa using Or.inr later)
        · rw [insert, if_neg before, if_neg here, List.map_cons, List.mem_cons] at inside
          rcases inside with rfl | later
          · simp
          · rcases ih later with same | old
            · exact Or.inl same
            · exact Or.inr (List.mem_cons_of_mem _ old)

theorem insert_increasing (paths : Paths R) (index : Nat) (blocks : List (Block R))
    (increasing : Increasing paths) : Increasing (Paths.insert index blocks paths) := by
  induction paths with
  | nil => simp [insert, Increasing]
  | cons path rest ih =>
      obtain ⟨i, held⟩ := path
      obtain ⟨above, tail⟩ := List.pairwise_cons.mp increasing
      by_cases before : index < i
      · rw [insert, if_pos before]
        refine List.pairwise_cons.mpr ⟨?_, increasing⟩
        intro path member
        rcases List.mem_cons.mp member with rfl | later
        · exact before
        · exact Nat.lt_trans before (above path later)
      · by_cases here : index = i
        · rw [insert, if_neg before, if_pos here]
          subst here
          exact List.pairwise_cons.mpr ⟨above, tail⟩
        · rw [insert, if_neg before, if_neg here]
          refine List.pairwise_cons.mpr ⟨?_, ih tail⟩
          intro path member
          rcases insert_indices rest index blocks path.1 (List.mem_map_of_mem member) with new | old
          · show i < path.1
            omega
          · obtain ⟨other, listed, same⟩ := List.mem_map.mp old
            show i < path.1
            rw [← same]
            exact above other listed

theorem get_of_mem (paths : Paths R) (increasing : Increasing paths) (index : Nat) (blocks : List (Block R))
    (member : (index, blocks) ∈ paths) : Paths.get? paths index = some blocks := by
  induction paths with
  | nil => cases member
  | cons path rest ih =>
      obtain ⟨i, held⟩ := path
      obtain ⟨above, tail⟩ := List.pairwise_cons.mp increasing
      rcases List.mem_cons.mp member with same | later
      · cases same
        simp [get_cons]
      · have less : i < index := above _ later
        have different : ¬ i = index := by omega
        simpa [get_cons, different] using ih tail later

theorem get_some_iff (paths : Paths R) (index : Nat) :
    (Paths.get? paths index).isSome ↔ index ∈ paths.map Prod.fst := by
  simp only [get?, Option.isSome_map, List.find?_isSome, List.mem_map, decide_eq_true_eq]

theorem last_largest (paths : Paths R) (increasing : Increasing paths) (last : Nat × List (Block R))
    (ends : paths.getLast? = some last) (path : Nat × List (Block R)) (member : path ∈ paths) :
    path.1 ≤ last.1 := by
  obtain ⟨front, rfl⟩ := List.getLast?_eq_some_iff.mp ends
  rcases List.mem_append.mp member with earlier | final
  · exact Nat.le_of_lt ((List.pairwise_append.mp increasing).2.2 path earlier last (by simp))
  · simp at final
    exact Nat.le_of_eq (congrArg Prod.fst final)

theorem longest_largest (paths : Paths R) (increasing : Increasing paths) :
    Paths.longest paths = (paths.map Prod.fst).max?.bind (Paths.get? paths) := by
  cases ends : paths.getLast? with
  | none =>
      have empty := List.getLast?_eq_none_iff.mp ends
      subst empty
      rfl
  | some last =>
      have member : last ∈ paths := List.mem_of_getLast? ends
      have largest : (paths.map Prod.fst).max? = some last.1 := by
        rw [List.max?_eq_some_iff]
        refine ⟨List.mem_map_of_mem member, ?_⟩
        intro index listed
        obtain ⟨path, inside, rfl⟩ := List.mem_map.mp listed
        exact last_largest paths increasing last ends path inside
      rw [longest, ends, largest]
      exact (get_of_mem paths increasing last.1 last.2 member).symm

end Paths

namespace Store

variable {R : Type}

def record (s : Store R) (x : Insertion (Cplx R)) : Store R := s.insert x.name x.estimator x.index x.blocks

def ofHistory (metadata : Metadata) (history : List (Insertion (Cplx R))) : Store R :=
  history.foldl record (empty metadata)

theorem lookup_entry (key other : SeriesKey) (held : Paths R) (rest : List (SeriesKey × Paths R)) :
    ((key, held) :: rest).lookup other = if key = other then some held else rest.lookup other := by
  rw [List.lookup_cons]
  by_cases same : key = other
  · simp [same]
  · have different : (other == key) = false := beq_eq_false_iff_ne.mpr (Ne.symm same)
    rw [different, if_neg same]

theorem lookup_replacing (key other : SeriesKey) (held : Paths R) (series : List (SeriesKey × Paths R)) :
    (replacing key held series).lookup other = if key = other then some held else series.lookup other := by
  induction series with
  | nil => rw [replacing, lookup_entry]
  | cons entry rest ih =>
      obtain ⟨k, old⟩ := entry
      by_cases here : k = key
      · subst here
        rw [replacing, if_pos rfl, lookup_entry, lookup_entry]
        by_cases same : k = other <;> simp [same]
      · rw [replacing, if_neg here, lookup_entry, lookup_entry, ih]
        by_cases first : k = other
        · have different : ¬ key = other := fun same => here (first.trans same.symm)
          simp [first, different]
        · simp [first]

theorem record_paths (s : Store R) (x : Insertion (Cplx R)) (key : SeriesKey) :
    (s.record x).paths key =
      if (⟨x.name, x.estimator⟩ : SeriesKey) = key then Paths.insert x.index x.blocks (s.paths key) else s.paths key := by
  simp only [record, insert, paths, lookup_replacing]
  by_cases same : (⟨x.name, x.estimator⟩ : SeriesKey) = key
  · simp [same]
  · simp [same]

theorem history_append (metadata : Metadata) (history : List (Insertion (Cplx R))) (x : Insertion (Cplx R)) :
    ofHistory metadata (history ++ [x]) = (ofHistory metadata history).record x := by
  simp [ofHistory]

theorem history_metadata (metadata : Metadata) (history : List (Insertion (Cplx R))) :
    (ofHistory metadata history).metadata = metadata := by
  induction history using List.reverseRecOn with
  | nil => rfl
  | append_singleton earlier x ih => rw [history_append]; exact ih

theorem history_increasing (metadata : Metadata) (history : List (Insertion (Cplx R))) (key : SeriesKey) :
    Paths.Increasing ((ofHistory metadata history).paths key) := by
  induction history using List.reverseRecOn with
  | nil => exact List.Pairwise.nil
  | append_singleton earlier x ih =>
      rw [history_append, record_paths]
      by_cases same : (⟨x.name, x.estimator⟩ : SeriesKey) = key
      · rw [if_pos same]
        exact Paths.insert_increasing _ _ _ ih
      · rw [if_neg same]
        exact ih

theorem history_get (metadata : Metadata) (history : List (Insertion (Cplx R))) (key : SeriesKey) (index : Nat) :
    Paths.get? ((ofHistory metadata history).paths key) index =
      Insertion.lastAt history key.name key.estimator index := by
  induction history using List.reverseRecOn with
  | nil => rfl
  | append_singleton earlier x ih =>
      obtain ⟨name, estimator⟩ := key
      rw [history_append, record_paths, Insertion.last_at_append, ← ih]
      by_cases same : (⟨x.name, x.estimator⟩ : SeriesKey) = ⟨name, estimator⟩
      · rw [if_pos same, Paths.insert_get]
        cases same
        simp
      · have different : ¬ (x.name = name ∧ x.estimator = estimator ∧ x.index = index) := by
          rintro ⟨rfl, rfl, _⟩
          exact same rfl
        rw [if_neg same, if_neg different]

theorem history_largest (metadata : Metadata) (history : List (Insertion (Cplx R))) (name : String)
    (estimator : Estimator) :
    (((ofHistory metadata history).paths ⟨name, estimator⟩).map Prod.fst).max? =
      Insertion.largestIndex? history name estimator := by
  have same (index : Nat) : index ∈ ((ofHistory metadata history).paths ⟨name, estimator⟩).map Prod.fst ↔
      index ∈ (history.filter fun x => x.name = name ∧ x.estimator = estimator).map Insertion.index := by
    rw [← Paths.get_some_iff, history_get, Insertion.last_at_some_iff]
  apply Option.ext
  intro largest
  simp only [Insertion.largestIndex?, List.max?_eq_some_iff, same]

theorem series_of_history (metadata : Metadata) (history : List (Insertion (Cplx R))) (name : String)
    (estimator : Estimator) (path : Option Nat) :
    (ofHistory metadata history).series? name estimator path = Insertion.held history name estimator path := by
  cases path with
  | some index => exact history_get metadata history ⟨name, estimator⟩ index
  | none =>
      have largest := Paths.longest_largest _ (history_increasing metadata history ⟨name, estimator⟩)
      rw [history_largest] at largest
      simp only [series?, largest, Insertion.held]
      congr 1
      funext index
      exact history_get metadata history ⟨name, estimator⟩ index

end Store

theorem store_metadata {R : Type} (store : Store R) (metadata : Metadata) :
    store.source.metadata = .ok metadata ↔ store.metadata = metadata :=
  ⟨Except.ok.inj, congrArg Except.ok⟩

theorem store_series {R : Type} (store : Store R) (name : String) (estimator : Estimator) (path : Option Nat)
    (blocks : List (Block R)) :
    store.source.series name estimator path = .ok blocks ↔ store.series? name estimator path = some blocks := by
  simp only [Store.source]
  cases store.series? name estimator path <;> simp

end OrbitalSpectra
