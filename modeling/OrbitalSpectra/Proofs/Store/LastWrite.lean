import OrbitalSpectra.Proofs.Store.History
import OrbitalSpectra.Scalar.Float

set_option autoImplicit false

namespace OrbitalSpectra

-- One call that stores a series: its blocks come as complex numbers, or as real ones.
inductive Write (R : Type)
  | complex (x : Insertion (Cplx R))
  | real (x : Insertion R)

namespace Insertion

variable {α : Type}

abbrev At (x : Insertion α) (name : String) (estimator : Estimator) (index : Nat) : Prop :=
  x.name = name ∧ x.estimator = estimator ∧ x.index = index

theorem last_at_none_iff (history : List (Insertion α)) (name : String) (estimator : Estimator) (index : Nat) :
    lastAt history name estimator index = none ↔ ∀ x ∈ history, ¬ x.At name estimator index := by
  simp [lastAt, At]

theorem mem_indices_iff (history : List (Insertion α)) (name : String) (estimator : Estimator) (index : Nat) :
    index ∈ (history.filter fun x => x.name = name ∧ x.estimator = estimator).map Insertion.index ↔
      ∃ x ∈ history, x.At name estimator index := by
  simp only [List.mem_map, List.mem_filter, decide_eq_true_eq, At]
  constructor
  · rintro ⟨x, ⟨member, name, estimator⟩, index⟩
    exact ⟨x, member, name, estimator, index⟩
  · rintro ⟨x, member, name, estimator, index⟩
    exact ⟨x, ⟨member, name, estimator⟩, index⟩

theorem largest_index_none_iff (history : List (Insertion α)) (name : String) (estimator : Estimator) :
    largestIndex? history name estimator = none ↔ ∀ x ∈ history, ¬ (x.name = name ∧ x.estimator = estimator) := by
  simp [largestIndex?]

theorem largest_index_congr {history other : List (Insertion α)} (same : ∀ x, x ∈ history ↔ x ∈ other)
    (name : String) (estimator : Estimator) :
    largestIndex? history name estimator = largestIndex? other name estimator := by
  apply Option.ext
  intro largest
  simp only [largestIndex?, List.max?_eq_some_iff, mem_indices_iff, same]

theorem largest_index_held {history : List (Insertion α)} {name : String} {estimator : Estimator} {index : Nat}
    (largest : largestIndex? history name estimator = some index) :
    ∃ blocks, lastAt history name estimator index = some blocks := by
  have listed := (List.max?_eq_some_iff.mp largest).1
  exact Option.isSome_iff_exists.mp ((last_at_some_iff _ _ _ _).mpr listed)

theorem held_none_iff (history : List (Insertion α)) (name : String) (estimator : Estimator) :
    held history name estimator none = none ↔ ∀ x ∈ history, ¬ (x.name = name ∧ x.estimator = estimator) := by
  rw [← largest_index_none_iff]
  cases largest : largestIndex? history name estimator with
  | none => simp [held, largest]
  | some index =>
      obtain ⟨blocks, last⟩ := largest_index_held largest
      simp [held, largest, last]

theorem last_at_swap (history : List (Insertion α)) (x y : Insertion α)
    (apart : ¬ y.At x.name x.estimator x.index) (name : String) (estimator : Estimator) (index : Nat) :
    lastAt (history ++ [x] ++ [y]) name estimator index = lastAt (history ++ [y] ++ [x]) name estimator index := by
  simp only [last_at_append]
  by_cases first : x.At name estimator index
  · obtain ⟨rfl, rfl, rfl⟩ := first
    rw [if_neg apart, if_neg apart]
  · rw [if_neg first, if_neg first]

theorem held_swap (history : List (Insertion α)) (x y : Insertion α) (apart : ¬ y.At x.name x.estimator x.index)
    (name : String) (estimator : Estimator) (path : Option Nat) :
    held (history ++ [x] ++ [y]) name estimator path = held (history ++ [y] ++ [x]) name estimator path := by
  have members (z : Insertion α) : z ∈ history ++ [x] ++ [y] ↔ z ∈ history ++ [y] ++ [x] := by
    simp [or_comm]
  have largest := largest_index_congr members name estimator
  have last := last_at_swap history x y apart name estimator
  cases path with
  | some index => exact last index
  | none => rw [held, held, largest, funext last]

end Insertion

namespace Paths

variable {R : Type}

theorem insert_nonempty (paths : Paths R) (index : Nat) (blocks : List (Block R)) :
    Paths.insert index blocks paths ≠ [] := by
  cases paths with
  | nil => simp [insert]
  | cons path rest =>
      obtain ⟨i, held⟩ := path
      by_cases before : index < i
      · simp [insert, before]
      · by_cases here : index = i <;> simp [insert, before, here]

theorem insert_perm (paths : Paths R) (index : Nat) (blocks : List (Block R)) (increasing : Increasing paths) :
    (Paths.insert index blocks paths).Perm ((paths.filter fun path => path.1 ≠ index) ++ [(index, blocks)]) := by
  induction paths with
  | nil => simp [insert]
  | cons path rest ih =>
      obtain ⟨i, held⟩ := path
      obtain ⟨above, tail⟩ := List.pairwise_cons.mp increasing
      have later (low : index ≤ i) : (rest.filter fun path => path.1 ≠ index) = rest := by
        refine List.filter_eq_self.mpr ?_
        intro path member
        have less : i < path.1 := above path member
        simp only [ne_eq, decide_eq_true_eq]
        omega
      by_cases before : index < i
      · have different : i ≠ index := by omega
        rw [insert, if_pos before, List.filter_cons_of_pos (by simpa using different), later (by omega)]
        exact (List.perm_append_singleton _ _).symm
      · by_cases here : index = i
        · rw [insert, if_neg before, if_pos here, List.filter_cons_of_neg (by simp [here]), later (by omega)]
          exact (List.perm_append_singleton _ _).symm
        · rw [insert, if_neg before, if_neg here, List.filter_cons_of_pos (by simpa using Ne.symm here)]
          exact (ih tail).cons _

def notAfter (a b : Nat × List (Block R)) : Bool := a.1 ≤ b.1

theorem merge_sort_sorted (paths : Paths R) : (paths.mergeSort notAfter).Pairwise fun a b => a.1 ≤ b.1 := by
  have transitive (a b c : Nat × List (Block R)) : notAfter a b = true → notAfter b c = true → notAfter a c = true := by
    simpa [notAfter] using Nat.le_trans
  have linear (a b : Nat × List (Block R)) : (notAfter a b || notAfter b a) = true := by
    simpa [notAfter] using Nat.le_total a.1 b.1
  exact (List.pairwise_mergeSort transitive linear paths).imp fun holds => of_decide_eq_true holds

-- The blocks are put at the end, without what was held at their index, and all paths sorted by index.
def sortedIn (index : Nat) (blocks : List (Block R)) (paths : Paths R) : Paths R :=
  ((paths.filter fun path => path.1 ≠ index) ++ [(index, blocks)]).mergeSort notAfter

theorem insert_sorts (paths : Paths R) (index : Nat) (blocks : List (Block R)) (increasing : Increasing paths) :
    Paths.insert index blocks paths = sortedIn index blocks paths := by
  have ordered := insert_increasing paths index blocks increasing
  have perm := (insert_perm paths index blocks increasing).trans (List.mergeSort_perm _ notAfter).symm
  refine List.Perm.eq_of_pairwise ?_ (ordered.imp Nat.le_of_lt) (merge_sort_sorted _) perm
  intro a b left right lower upper
  have index : a.1 = b.1 := Nat.le_antisymm lower upper
  have first := get_of_mem _ ordered a.1 a.2 left
  have second := get_of_mem _ ordered b.1 b.2 (perm.mem_iff.mpr right)
  rw [index, second, Option.some.injEq] at first
  exact Prod.ext index first.symm

end Paths

namespace Store

variable {R : Type}

-- Each key stands once, and its paths are some, in strictly increasing order of their indices.
structure Sound (s : Store R) : Prop where
  distinct : (s.series.map Prod.fst).Nodup
  filled : ∀ entry ∈ s.series, entry.2 ≠ []
  increasing : ∀ entry ∈ s.series, Paths.Increasing entry.2

theorem replacing_mem (key : SeriesKey) (paths : Paths R) (series : List (SeriesKey × Paths R))
    (entry : SeriesKey × Paths R) (member : entry ∈ replacing key paths series) :
    entry = (key, paths) ∨ entry ∈ series := by
  induction series with
  | nil => exact Or.inl (by simpa [replacing] using member)
  | cons first rest ih =>
      obtain ⟨k, held⟩ := first
      by_cases here : k = key
      · rw [replacing, if_pos here] at member
        rcases List.mem_cons.mp member with new | old
        · exact Or.inl new
        · exact Or.inr (List.mem_cons_of_mem _ old)
      · rw [replacing, if_neg here] at member
        rcases List.mem_cons.mp member with same | later
        · exact Or.inr (by simp [same])
        · rcases ih later with new | old
          · exact Or.inl new
          · exact Or.inr (List.mem_cons_of_mem _ old)

theorem replacing_distinct (key : SeriesKey) (paths : Paths R) (series : List (SeriesKey × Paths R))
    (distinct : (series.map Prod.fst).Nodup) : ((replacing key paths series).map Prod.fst).Nodup := by
  induction series with
  | nil => simp [replacing]
  | cons first rest ih =>
      obtain ⟨k, held⟩ := first
      obtain ⟨absent, tail⟩ := List.nodup_cons.mp distinct
      by_cases here : k = key
      · rw [replacing, if_pos here, ← here]
        exact List.nodup_cons.mpr ⟨absent, tail⟩
      · rw [replacing, if_neg here]
        refine List.nodup_cons.mpr ⟨?_, ih tail⟩
        intro listed
        obtain ⟨entry, member, same⟩ := List.mem_map.mp listed
        rcases replacing_mem key paths rest entry member with rfl | old
        · exact here same.symm
        · exact absent (same ▸ List.mem_map_of_mem old)

theorem paths_increasing (s : Store R) (sound : Sound s) (key : SeriesKey) : Paths.Increasing (s.paths key) := by
  cases found : s.series.lookup key with
  | none => simp [paths, found, Paths.Increasing]
  | some held =>
      obtain ⟨before, after, split, _⟩ := List.lookup_eq_some_iff.mp found
      have listed : (key, held) ∈ s.series := by simp [split]
      simpa [paths, found] using sound.increasing _ listed

theorem record_sound (s : Store R) (x : Insertion (Cplx R)) (sound : Sound s) : Sound (s.record x) where
  distinct := replacing_distinct _ _ _ sound.distinct
  filled := by
    intro entry member
    rcases replacing_mem _ _ _ entry member with rfl | old
    · exact Paths.insert_nonempty _ _ _
    · exact sound.filled entry old
  increasing := by
    intro entry member
    rcases replacing_mem _ _ _ entry member with rfl | old
    · exact Paths.insert_increasing _ _ _ (paths_increasing s sound _)
    · exact sound.increasing entry old

theorem history_sound (metadata : Metadata) (history : List (Insertion (Cplx R))) :
    Sound (ofHistory metadata history) := by
  induction history using List.reverseRecOn with
  | nil => exact ⟨List.nodup_nil, by simp [ofHistory, empty], by simp [ofHistory, empty]⟩
  | append_singleton earlier x ih => rw [history_append]; exact record_sound _ x ih

variable [Scalar R]

def write (s : Store R) : Write R → Store R
  | .complex x => s.insert x.name x.estimator x.index x.blocks
  | .real x => s.insertReal x.name x.estimator x.index x.blocks

def ofWrites (metadata : Metadata) (writes : List (Write R)) : Store R := writes.foldl write (empty metadata)

end Store

namespace Write

variable {R : Type} [Scalar R]

-- What a write leaves in the store: real blocks are kept as complex ones.
def kept : Write R → Insertion (Cplx R)
  | complex x => x
  | real x => x.map Cplx.ofReal

theorem write_eq_record (s : Store R) (w : Write R) : s.write w = s.record w.kept := by
  cases w <;> rfl

theorem of_writes_append (metadata : Metadata) (writes : List (Write R)) (w : Write R) :
    Store.ofWrites metadata (writes ++ [w]) = (Store.ofWrites metadata writes).write w := by
  simp [Store.ofWrites]

theorem of_writes_eq_history (metadata : Metadata) (writes : List (Write R)) :
    Store.ofWrites metadata writes = Store.ofHistory metadata (writes.map kept) := by
  rw [Store.ofWrites, Store.ofHistory, List.foldl_map]
  congr 1
  funext s w
  exact write_eq_record s w

theorem series_of_writes (metadata : Metadata) (writes : List (Write R)) (name : String) (estimator : Estimator)
    (path : Option Nat) :
    (Store.ofWrites metadata writes).series? name estimator path =
      Insertion.held (writes.map kept) name estimator path := by
  rw [of_writes_eq_history, Store.series_of_history]

end Write

namespace Store

section Answers

variable {R : Type}

theorem source_missing_iff (s : Store R) (name : String) (estimator : Estimator) (path : Option Nat) :
    s.source.series name estimator path = .error (.missingObservable name estimator) ↔
      s.series? name estimator path = none := by
  simp only [source]
  cases s.series? name estimator path <;> simp

theorem source_congr {s t : Store R} {name : String} {estimator : Estimator} {path : Option Nat}
    (same : s.series? name estimator path = t.series? name estimator path) :
    s.source.series name estimator path = t.source.series name estimator path := by
  simp only [source, same]

end Answers

section Writes

variable {R : Type} [Scalar R] (metadata : Metadata) (writes : List (Write R)) (name : String)
  (estimator : Estimator)

theorem of_writes_ok_iff (path : Option Nat) (blocks : List (Block R)) :
    (ofWrites metadata writes).source.series name estimator path = .ok blocks ↔
      Insertion.held (writes.map Write.kept) name estimator path = some blocks := by
  rw [store_series, Write.series_of_writes]

theorem of_writes_missing_iff (path : Option Nat) :
    (ofWrites metadata writes).source.series name estimator path = .error (.missingObservable name estimator) ↔
      Insertion.held (writes.map Write.kept) name estimator path = none := by
  rw [source_missing_iff, Write.series_of_writes]

theorem of_writes_sound : Sound (ofWrites metadata writes) := by
  rw [Write.of_writes_eq_history]
  exact history_sound metadata _

theorem write_paths (w : Write R) (key : SeriesKey) : ((ofWrites metadata writes).write w).paths key =
    if (⟨w.kept.name, w.kept.estimator⟩ : SeriesKey) = key then
      Paths.sortedIn w.kept.index w.kept.blocks ((ofWrites metadata writes).paths key)
    else (ofWrites metadata writes).paths key := by
  have increasing := paths_increasing _ (of_writes_sound metadata writes) key
  rw [Write.write_eq_record, record_paths, Paths.insert_sorts _ _ _ increasing]

theorem writes_commute (v w : Write R) (apart : ¬ w.kept.At v.kept.name v.kept.estimator v.kept.index)
    (path : Option Nat) : (((ofWrites metadata writes).write v).write w).source.series name estimator path =
      (((ofWrites metadata writes).write w).write v).source.series name estimator path := by
  apply source_congr
  simp only [← Write.of_writes_append, Write.series_of_writes, List.map_append]
  exact Insertion.held_swap _ v.kept w.kept apart name estimator path

theorem write_elsewhere (w : Write R) (index : Nat) (elsewhere : ¬ w.kept.At name estimator index) :
    ((ofWrites metadata writes).write w).source.series name estimator (some index) =
      (ofWrites metadata writes).source.series name estimator (some index) := by
  apply source_congr
  simp only [← Write.of_writes_append, Write.series_of_writes, List.map_append]
  exact (Insertion.last_at_append _ w.kept name estimator index).trans (if_neg elsewhere)

end Writes

end Store

theorem last_write_wins {R : Type} [Scalar R] (metadata : Metadata) (writes : List (Write R)) :
    let store := Store.ofWrites metadata writes
    let history := writes.map Write.kept
    -- at a path index
    (∀ name estimator index,
      (∀ blocks, store.source.series name estimator (some index) = .ok blocks ↔
        Insertion.lastAt history name estimator index = some blocks) ∧
      (store.source.series name estimator (some index) = .error (.missingObservable name estimator) ↔
        ∀ x ∈ history, ¬ x.At name estimator index)) ∧
    -- at the longest path
    (∀ name estimator,
      (∀ blocks, store.source.series name estimator none = .ok blocks ↔
        ∃ index, Insertion.largestIndex? history name estimator = some index ∧
          Insertion.lastAt history name estimator index = some blocks) ∧
      (store.source.series name estimator none = .error (.missingObservable name estimator) ↔
        ∀ x ∈ history, ¬ (x.name = name ∧ x.estimator = estimator))) ∧
    store.Sound ∧
    (∀ (w : Write R) (key : SeriesKey), (store.write w).paths key =
      if (⟨w.kept.name, w.kept.estimator⟩ : SeriesKey) = key then
        Paths.sortedIn w.kept.index w.kept.blocks (store.paths key)
      else store.paths key) ∧
    (∀ v w : Write R, ¬ w.kept.At v.kept.name v.kept.estimator v.kept.index → ∀ name estimator path,
      ((store.write v).write w).source.series name estimator path =
        ((store.write w).write v).source.series name estimator path) ∧
    ∀ (w : Write R) (name : String) (estimator : Estimator) (index : Nat), ¬ w.kept.At name estimator index →
      (store.write w).source.series name estimator (some index) =
        store.source.series name estimator (some index) := by
  intro store history
  refine ⟨?_, ?_, Store.of_writes_sound metadata writes, Store.write_paths metadata writes, ?_, ?_⟩
  · intro name estimator index
    refine ⟨Store.of_writes_ok_iff metadata writes name estimator (some index), ?_⟩
    exact (Store.of_writes_missing_iff _ _ _ _ _).trans (Insertion.last_at_none_iff history name estimator index)
  · intro name estimator
    refine ⟨fun blocks => ?_, ?_⟩
    · exact (Store.of_writes_ok_iff _ _ _ _ _ _).trans Option.bind_eq_some_iff
    · exact (Store.of_writes_missing_iff _ _ _ _ _).trans (Insertion.held_none_iff history name estimator)
  · intro v w apart name estimator path
    exact Store.writes_commute metadata writes name estimator v w apart path
  · intro w name estimator index elsewhere
    exact Store.write_elsewhere metadata writes name estimator w index elsewhere

theorem last_write_wins_overwritten :
    let store : Store Float := Store.ofWrites ⟨1, 1, false⟩
      [.real ⟨"one_rdm", .mixed, 4, [#[]]⟩, .complex ⟨"one_rdm", .mixed, 1, [#[], #[]]⟩,
        .complex ⟨"one_rdm", .mixed, 4, []⟩]
    store.source.series "one_rdm" .mixed none = .ok [] ∧
      store.source.series "one_rdm" .mixed (some 1) = .ok [#[], #[]] ∧
      store.source.series "one_rdm" .backPropagated none =
        .error (.missingObservable "one_rdm" .backPropagated) ∧
      (let beyond := Write.real ⟨"one_rdm", .mixed, 7, [#[]]⟩
      ((store.write beyond).write (.complex ⟨"one_rdm", .mixed, 2, []⟩)).source.series "one_rdm" .mixed none =
          ((store.write (.complex ⟨"one_rdm", .mixed, 2, []⟩)).write beyond).source.series "one_rdm" .mixed none ∧
        (store.write beyond).source.series "one_rdm" .mixed (some 4) =
          store.source.series "one_rdm" .mixed (some 4)) := by
  intro store
  obtain ⟨indexed, longest, _, _, commutes, elsewhere⟩ := last_write_wins (R := Float) ⟨1, 1, false⟩
    [.real ⟨"one_rdm", .mixed, 4, [#[]]⟩, .complex ⟨"one_rdm", .mixed, 1, [#[], #[]]⟩,
      .complex ⟨"one_rdm", .mixed, 4, []⟩]
  refine ⟨?_, ?_, ?_, ?_, ?_⟩
  · exact ((longest "one_rdm" .mixed).1 []).mpr ⟨4, rfl, rfl⟩
  · exact ((indexed "one_rdm" .mixed 1).1 [#[], #[]]).mpr rfl
  · exact (longest "one_rdm" .backPropagated).2.mpr (by simp [Write.kept, Insertion.map])
  · exact commutes _ _ (by simp [Write.kept, Insertion.map]) "one_rdm" .mixed none
  · exact elsewhere _ "one_rdm" .mixed 4 (by simp [Write.kept, Insertion.map])

end OrbitalSpectra
