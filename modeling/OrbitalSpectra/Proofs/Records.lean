import Mathlib.Data.List.Nodup
import OrbitalSpectra.Proofs.Outcome
import OrbitalSpectra.Yaml.Record

set_option autoImplicit false

namespace OrbitalSpectra

namespace Yaml

namespace Record

variable {α : Type} (r : Record)

theorem require_known_iff (fields : List String) : r.requireKnown fields = .ok () ↔ ∀ key ∈ r.keys, key ∈ fields := by
  rw [requireKnown]
  cases found : r.keys.find? fun key => !fields.contains key with
  | none => simpa using found
  | some key =>
      refine iff_of_false nofun fun all => ?_
      have odd := List.find?_some found
      simp [all key (List.mem_of_find?_eq_some found)] at odd

theorem require_once_iff (fields : List String) :
    r.requireOnce fields = .ok () ↔ ∀ field ∈ fields, r.keys.count field ≤ 1 := by
  rw [requireOnce]
  cases found : fields.find? fun field => 1 < r.keys.count field with
  | none => simpa using found
  | some field =>
      refine iff_of_false nofun fun all => ?_
      have twice := List.find?_some found
      have once := all field (List.mem_of_find?_eq_some found)
      simp at twice
      omega

theorem keys_distinct_iff {fields : List String} (known : ∀ key ∈ r.keys, key ∈ fields) :
    (∀ field ∈ fields, r.keys.count field ≤ 1) ↔ r.keys.Nodup := by
  rw [List.nodup_iff_count_le_one]
  constructor
  · intro once key
    by_cases listed : key ∈ r.keys
    · exact once key (known key listed)
    · rw [List.count_eq_zero_of_not_mem listed]
      exact Nat.zero_le 1
  · exact fun once field _ => once field

theorem get_d_ok_iff (field : String) (value? : Node → Option α) (default v : α) :
    r.getD field value? default = .ok v ↔
      (r.lookup field = none ∧ v = default) ∨ ∃ n, r.lookup field = some n ∧ value? n = some v := by
  rw [getD, get?, except_bind_ok_iff]
  cases r.lookup field with
  | none => simp [Pure.pure, Except.pure, eq_comm]
  | some n => cases value : value? n <;> simp [value, Pure.pure, Except.pure]

theorem lookup_some_iff {r : Record} (distinct : r.keys.Nodup) (field : String) (n : Node) :
    r.lookup field = some n ↔ (field, n) ∈ r := by
  rw [List.lookup_eq_some_iff]
  constructor
  · rintro ⟨before, after, rfl, _⟩
    simp
  · intro member
    obtain ⟨before, after, rfl⟩ := List.append_of_mem member
    refine ⟨before, after, rfl, fun entry earlier => ?_⟩
    rw [keys, List.map_append, List.map_cons] at distinct
    have apart := (List.nodup_append.mp distinct).2.2 entry.1 (List.mem_map_of_mem earlier) field List.mem_cons_self
    simpa using apart.symm

end Record

namespace Document

-- The record lists the texts of the keys with their values.
def Lists (d : Document) (entries : List (Node × Node)) (r : Record) : Prop :=
  entries.map (fun e => (d.text? e.1, e.2)) = r.map fun e => (some e.1, e.2)

variable {d : Document} {tag : Option Tag} {entries : List (Node × Node)}

theorem record_ok_iff (mapping : d.root = some (.mapping tag entries)) (r : Record) :
    d.record = .ok r ↔ d.Lists entries r := by
  rw [record, mapping, Lists]
  clear mapping
  simp only
  induction entries generalizing r with
  | nil => cases r <;> simp [Pure.pure, Except.pure]
  | cons entry rest ih =>
      obtain ⟨key, n⟩ := entry
      simp only [List.mapM_cons, except_bind_ok_iff]
      cases text : d.text? key with
      | none => cases r <;> simp [text]
      | some name =>
          constructor
          · rintro ⟨_, made, others, tail, same⟩
            cases made
            cases same
            simp [text, (ih others).mp tail]
          · intro same
            cases r with
            | nil => simp at same
            | cons first others =>
                obtain ⟨head, tail⟩ := List.cons.inj same
                simp only [text, Prod.mk.injEq, Option.some.injEq] at head
                exact ⟨_, rfl, others, (ih others).mpr tail, by rw [head.1, head.2]; rfl⟩

section Listed

variable {r : Record} (lists : d.Lists entries r)

include lists

theorem record_member (field : String) (n : Node) :
    (field, n) ∈ r ↔ ∃ key, (key, n) ∈ entries ∧ d.text? key = some field := by
  have listed : (some field, n) ∈ r.map (fun e => (some e.1, e.2)) ↔ (field, n) ∈ r := by simp
  rw [← listed, ← lists]
  simp

theorem record_keys : entries.map (fun e => d.text? e.1) = r.keys.map some := by
  have names := congrArg (List.map Prod.fst) lists
  simpa [List.map_map, Function.comp_def, Record.keys] using names

end Listed

end Document

end Yaml

end OrbitalSpectra
