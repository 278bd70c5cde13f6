import OrbitalSpectra.Params.Document
import OrbitalSpectra.Proofs.Koopmans.Reads
import OrbitalSpectra.Proofs.Records

set_option autoImplicit false

namespace OrbitalSpectra

open Yaml AnalysisError

namespace Params

inductive Field
  | estimator
  | equilibration
  | stride
  | path
  | samples
  | screenFactor
  | cutoff
  | seed
deriving DecidableEq

namespace Field

def name : Field → String
  | estimator => "estimator"
  | equilibration => "equilibration"
  | stride => "stride"
  | path => "bp_index"
  | samples => "nsamp"
  | screenFactor => "screen_factor"
  | cutoff => "cutoff"
  | seed => "seed"

def Value : Field → Type
  | estimator => Estimator
  | equilibration | stride | samples => Nat
  | path => Option Nat
  | screenFactor | cutoff => Float
  | seed => Option UInt64

def read? (d : Document) : (f : Field) → Node → Option f.Value
  | estimator, n => (d.name? n).bind Estimator.ofName?
  | equilibration, n | stride, n | samples, n => d.unsigned? n
  | path, n => d.optional? d.unsigned? n
  | screenFactor, n | cutoff, n => d.float? n
  | seed, n => (d.optional? d.unsigned? n).map (·.map Nat.toUInt64)

theorem name_listed (key : String) : key ∈ fieldNames ↔ ∃ f : Field, key = f.name := by
  constructor
  · intro listed
    simp only [fieldNames, List.mem_cons, List.not_mem_nil, or_false] at listed
    rcases listed with rfl | rfl | rfl | rfl | rfl | rfl | rfl | rfl
    exacts [⟨estimator, rfl⟩, ⟨equilibration, rfl⟩, ⟨stride, rfl⟩, ⟨path, rfl⟩, ⟨samples, rfl⟩, ⟨screenFactor, rfl⟩,
      ⟨cutoff, rfl⟩, ⟨seed, rfl⟩]
  · rintro ⟨f, rfl⟩
    cases f <;> simp [fieldNames, name]

theorem name_injective : Function.Injective name := by
  intro f g
  cases f <;> cases g <;> decide

end Field

def get (p : Params Float) : (f : Field) → f.Value
  | .estimator => p.estimator
  | .equilibration => p.equilibration
  | .stride => p.stride
  | .path => p.path
  | .samples => p.samples
  | .screenFactor => p.screenFactor
  | .cutoff => p.cutoff
  | .seed => p.seed

def ofValues (v : (f : Field) → f.Value) : Params Float :=
  ⟨v .estimator, v .equilibration, v .stride, v .path, v .samples, v .screenFactor, v .cutoff, v .seed⟩

theorem get_of_values (v : (f : Field) → f.Value) (f : Field) : (ofValues v).get f = v f := by
  cases f <;> rfl

theorem of_record_ok_iff (d : Document) (r : Record) (p : Params Float) : ofRecord d r = .ok p ↔
    r.requireKnown fieldNames = .ok () ∧ r.requireOnce fieldNames = .ok () ∧
      ∀ f : Field, r.getD f.name (f.read? d) (Params.default.get f) = .ok (p.get f) := by
  simp only [ofRecord, except_bind_ok_iff]
  constructor
  · rintro ⟨_, known, _, once, _, estimator, _, equilibration, _, stride, _, path, _, samples, _, screenFactor,
      _, cutoff, _, seed, made⟩
    cases made
    refine ⟨known, once, ?_⟩
    intro f
    cases f
    exacts [estimator, equilibration, stride, path, samples, screenFactor, cutoff, seed]
  · rintro ⟨known, once, fields⟩
    exact ⟨_, known, _, once, _, fields .estimator, _, fields .equilibration, _, fields .stride, _, fields .path,
      _, fields .samples, _, fields .screenFactor, _, fields .cutoff, _, fields .seed, rfl⟩

-- What has the type of a field depends on the node behind its aliases only.
theorem read_congr {d d' : Document} {n n' : Node} (same : d.resolve n = d'.resolve n') (f : Field) :
    f.read? d n = f.read? d' n' := by
  have bare (kind : String) : d.bare? kind n = d'.bare? kind n' := by rw [Document.bare?, Document.bare?, same]
  have name : d.name? n = d'.name? n' := by rw [Document.name?, Document.name?, same]
  have unsigned : d.unsigned? n = d'.unsigned? n' := by rw [Document.unsigned?, Document.unsigned?, bare]
  have float : d.float? n = d'.float? n' := by rw [Document.float?, Document.float?, bare]
  have index : d.optional? d.unsigned? n = d'.optional? d'.unsigned? n' := by
    rw [Document.optional?, Document.optional?, same, unsigned]
  cases f with
  | estimator => exact congrArg (·.bind Estimator.ofName?) name
  | equilibration | stride | samples => exact unsigned
  | path => exact index
  | screenFactor | cutoff => exact float
  | seed => exact congrArg (·.map (·.map Nat.toUInt64)) index

theorem null_words {text : String} (null : text = "" ∨ isNull text = true) :
    Estimator.ofName? text = none ∧ Yaml.unsigned? text.toList = none ∧ (Yaml.float? text.toList).isNone = true := by
  have listed : text ∈ ["", "~", "null", "Null", "NULL"] := by simpa [isNull] using null
  have words : ∀ word ∈ ["", "~", "null", "Null", "NULL"], Estimator.ofName? word = none ∧
      Yaml.unsigned? word.toList = none ∧ (Yaml.float? word.toList).isNone = true := by decide +kernel
  exact words text listed

theorem null_read_iff {d : Document} {n : Node} {text : String} (scalar : d.resolve n = .scalar none .plain text)
    (null : text = "" ∨ isNull text = true) (f : Field) : f.read? d n ≠ none ↔ f = .path ∨ f = .seed := by
  obtain ⟨name, count, number⟩ := null_words null
  have bare (kind : String) : d.bare? kind n = some text := by simp [Document.bare?, scalar]
  have name : (d.name? n).bind Estimator.ofName? = none := by simpa [Document.name?, scalar] using name
  have unsigned : d.unsigned? n = none := by rw [Document.unsigned?, bare, Option.bind_some, count]
  have float : d.float? n = none := by
    rw [Document.float?, bare, Option.bind_some]
    exact Option.isNone_iff_eq_none.mp number
  have index : d.optional? d.unsigned? n = some none := by simp [Document.optional?, scalar, null]
  have seed : Field.seed.read? d n = some none := congrArg (·.map (·.map Nat.toUInt64)) index
  cases f with
  | estimator => exact iff_of_false (fun typed => typed name) (by simp)
  | equilibration | stride | samples => exact iff_of_false (fun typed => typed unsigned) (by simp)
  | path => exact iff_of_true (fun none => nomatch index.symm.trans none) (by simp)
  | screenFactor | cutoff => exact iff_of_false (fun typed => typed float) (by simp)
  | seed => exact iff_of_true (fun none => nomatch seed.symm.trans none) (by simp)

theorem collection_read {d : Document} {n : Node} (collection : ∀ tag style text, d.resolve n ≠ .scalar tag style text)
    (f : Field) : f.read? d n = none := by
  have bare (kind : String) : d.bare? kind n = none := by
    rw [Document.bare?]
    split
    · exact absurd ‹_› (collection _ _ _)
    · rfl
  have name : d.name? n = none := by
    rw [Document.name?]
    split
    · exact absurd ‹_› (collection _ _ _)
    · rfl
  have unsigned : d.unsigned? n = none := by rw [Document.unsigned?, bare, Option.bind_none]
  have float : d.float? n = none := by rw [Document.float?, bare, Option.bind_none]
  have index : d.optional? d.unsigned? n = none := by
    rw [Document.optional?]
    split
    · exact absurd ‹_› (collection _ _ _)
    · exact absurd ‹_› (collection _ _ _)
    · rw [unsigned, Option.map_none]
  cases f with
  | estimator => exact congrArg (·.bind Estimator.ofName?) name
  | equilibration | stride | samples => exact unsigned
  | path => exact index
  | screenFactor | cutoff => exact float
  | seed => exact congrArg (·.map (·.map Nat.toUInt64)) index

-- A null has the type of the two fields that may go without a value, and a collection has no field's.
structure FieldTypes (d : Document) : Prop where
  null : ∀ (f : Field) (n : Node) (text : String), d.resolve n = .scalar none .plain text →
    (text = "" ∨ isNull text = true) → (f.read? d n ≠ none ↔ f = .path ∨ f = .seed)
  collection : ∀ (f : Field) (n : Node), (∀ tag style text, d.resolve n ≠ .scalar tag style text) → f.read? d n = none

def Holds (d : Document) (entries : List (Node × Node)) (f : Field) (n : Node) : Prop :=
  ∃ key, (key, n) ∈ entries ∧ d.text? key = some f.name

-- What keeps a mapping from having parameters.
inductive Flaw (d : Document) (entries : List (Node × Node)) : Prop
  | unknown (key n : Node) : (key, n) ∈ entries → (∀ f : Field, d.text? key ≠ some f.name) → Flaw d entries
  | repeated : ¬ (entries.map fun e => d.text? e.1).Nodup → Flaw d entries
  | mistyped (f : Field) (n : Node) : Holds d entries f n → f.read? d n = none → Flaw d entries

def Takes (d : Document) (entries : List (Node × Node)) (f : Field) (v : f.Value) : Prop :=
  (∃ n, Holds d entries f n ∧ f.read? d n = some v) ∨ ((∀ n, ¬ Holds d entries f n) ∧ v = Params.default.get f)

def Decoded (d : Document) (entries : List (Node × Node)) (p : Params Float) : Prop :=
  ∀ f : Field, Takes d entries f (p.get f)

section Mapping

variable {d : Document} {tag : Option Tag} {entries : List (Node × Node)}

theorem known_key (fits : ¬ Flaw d entries) {key n : Node} (member : (key, n) ∈ entries) :
    ∃ f : Field, d.text? key = some f.name := by
  by_contra unknown
  exact fits (.unknown key n member (not_exists.mp unknown))

theorem record_exists (fits : ¬ Flaw d entries) : ∃ r : Record, d.Lists entries r := by
  refine ⟨entries.map fun e => ((d.text? e.1).getD "", e.2), ?_⟩
  rw [Document.Lists, List.map_map]
  apply List.map_congr_left
  intro entry member
  obtain ⟨f, named⟩ := known_key fits member
  simp [named]

section Listed

variable {r : Record} (lists : d.Lists entries r)

include lists

theorem keys_known_iff : (∀ key ∈ r.keys, key ∈ fieldNames) ↔
    ∀ key n : Node, (key, n) ∈ entries → ∃ f : Field, d.text? key = some f.name := by
  have names := Document.record_keys lists
  constructor
  · intro known key n member
    have listed : d.text? key ∈ r.keys.map some := names ▸ List.mem_map_of_mem (f := fun e => d.text? e.1) member
    obtain ⟨name, listed, text⟩ := List.mem_map.mp listed
    obtain ⟨f, rfl⟩ := (Field.name_listed name).mp (known name listed)
    exact ⟨f, text.symm⟩
  · intro named name listed
    have member : some name ∈ entries.map fun e => d.text? e.1 := names ▸ List.mem_map_of_mem listed
    obtain ⟨⟨key, n⟩, member, text⟩ := List.mem_map.mp member
    obtain ⟨f, other⟩ := named key n member
    rw [text] at other
    exact (Field.name_listed name).mpr ⟨f, Option.some.inj other⟩

theorem keys_distinct (fits : ¬ Flaw d entries) : r.keys.Nodup := by
  by_contra twice
  apply fits
  apply Flaw.repeated
  rw [Document.record_keys lists]
  exact fun nodup => twice (List.Nodup.of_map _ nodup)

variable (distinct : r.keys.Nodup)

include distinct

theorem holds_iff_lookup (f : Field) (n : Node) : Holds d entries f n ↔ r.lookup f.name = some n := by
  rw [Record.lookup_some_iff distinct, Document.record_member lists]
  rfl

theorem takes_iff (f : Field) (v : f.Value) :
    Takes d entries f v ↔ r.getD f.name (f.read? d) (Params.default.get f) = .ok v := by
  rw [Record.get_d_ok_iff, Takes, or_comm]
  simp only [holds_iff_lookup lists distinct, Option.eq_none_iff_forall_ne_some]

theorem record_fits (known : ∀ key ∈ r.keys, key ∈ fieldNames) {p : Params Float} (decoded : Decoded d entries p) :
    ¬ Flaw d entries := by
  intro flaw
  cases flaw with
  | unknown key n member strange =>
      obtain ⟨f, named⟩ := (keys_known_iff lists).mp known key n member
      exact strange f named
  | repeated twice =>
      rw [Document.record_keys lists] at twice
      exact twice (distinct.map (Option.some_injective _))
  | mistyped f n holds value =>
      have found := (holds_iff_lookup lists distinct f n).mp holds
      rcases decoded f with ⟨other, held, read⟩ | ⟨none, _⟩
      · cases found.symm.trans ((holds_iff_lookup lists distinct f other).mp held)
        cases value.symm.trans read
      · exact none n holds

end Listed

theorem of_document_ok_iff (mapping : d.root = some (.mapping tag entries)) (p : Params Float) :
    ofDocument d = .ok p ↔ ¬ Flaw d entries ∧ Decoded d entries p := by
  simp only [ofDocument, except_bind_ok_iff, Document.record_ok_iff mapping, of_record_ok_iff, Record.require_known_iff,
    Record.require_once_iff]
  constructor
  · rintro ⟨r, lists, known, once, fields⟩
    have distinct := (r.keys_distinct_iff known).mp once
    have decoded : Decoded d entries p := fun f => (takes_iff lists distinct f _).mpr (fields f)
    exact ⟨record_fits lists distinct known decoded, decoded⟩
  · rintro ⟨fits, decoded⟩
    obtain ⟨r, lists⟩ := record_exists fits
    have known := (keys_known_iff lists).mpr fun _ _ => known_key fits
    have distinct := keys_distinct lists fits
    exact ⟨r, lists, known, (r.keys_distinct_iff known).mpr distinct,
      fun f => (takes_iff lists distinct f _).mp (decoded f)⟩

theorem decoded_exists (fits : ¬ Flaw d entries) : ∃ p, Decoded d entries p := by
  have each (f : Field) : ∃ v, Takes d entries f v := by
    by_cases held : ∃ n, Holds d entries f n
    · obtain ⟨n, holds⟩ := held
      cases value : f.read? d n with
      | none => exact absurd (.mistyped f n holds value) fits
      | some v => exact ⟨v, .inl ⟨n, holds, value⟩⟩
    · exact ⟨_, .inr ⟨not_exists.mp held, rfl⟩⟩
  choose v takes using each
  exact ⟨ofValues v, fun f => (get_of_values v f).symm ▸ takes f⟩

theorem decoded_unique (mapping : d.root = some (.mapping tag entries)) (fits : ¬ Flaw d entries) {p q : Params Float}
    (first : Decoded d entries p) (second : Decoded d entries q) : q = p := by
  have left := (of_document_ok_iff mapping p).mpr ⟨fits, first⟩
  have right := (of_document_ok_iff mapping q).mpr ⟨fits, second⟩
  exact Except.ok.inj (right.symm.trans left)

end Mapping

-- What the entries say: the texts of the keys, and the values behind their aliases.
def contents (d : Document) (entries : List (Node × Node)) : List (Option String × Node) :=
  entries.map fun e => (d.text? e.1, d.resolve e.2)

section Order

variable {d d' : Document} {entries entries' : List (Node × Node)}
  (perm : (contents d entries).Perm (contents d' entries'))

include perm

theorem entry_permuted {key n : Node} (member : (key, n) ∈ entries) :
    ∃ key' n', (key', n') ∈ entries' ∧ d'.text? key' = d.text? key ∧ d'.resolve n' = d.resolve n := by
  have listed : (d.text? key, d.resolve n) ∈ contents d' entries' :=
    perm.mem_iff.mp (List.mem_map_of_mem (f := fun e => (d.text? e.1, d.resolve e.2)) member)
  obtain ⟨⟨key', n'⟩, member', same⟩ := List.mem_map.mp listed
  exact ⟨key', n', member', Prod.mk.inj same⟩

theorem holds_permuted {f : Field} {n : Node} (holds : Holds d entries f n) :
    ∃ n', Holds d' entries' f n' ∧ f.read? d' n' = f.read? d n := by
  obtain ⟨key, member, named⟩ := holds
  obtain ⟨key', n', member', text, value⟩ := entry_permuted perm member
  exact ⟨n', ⟨key', member', text.trans named⟩, read_congr value f⟩

theorem flaw_permuted (flaw : Flaw d entries) : Flaw d' entries' := by
  cases flaw with
  | unknown key n member strange =>
      obtain ⟨key', n', member', text, _⟩ := entry_permuted perm member
      exact .unknown key' n' member' fun f => text ▸ strange f
  | repeated twice =>
      have keys : (entries.map fun e => d.text? e.1).Perm (entries'.map fun e => d'.text? e.1) := by
        simpa [contents, List.map_map, Function.comp_def] using perm.map Prod.fst
      exact .repeated fun nodup => twice (keys.nodup_iff.mpr nodup)
  | mistyped f n holds value =>
      obtain ⟨n', holds', same⟩ := holds_permuted perm holds
      exact .mistyped f n' holds' (same.trans value)

theorem takes_permuted {f : Field} {v : f.Value} (takes : Takes d entries f v) : Takes d' entries' f v := by
  rcases takes with ⟨n, holds, value⟩ | ⟨none, default⟩
  · obtain ⟨n', holds', same⟩ := holds_permuted perm holds
    exact .inl ⟨n', holds', same.trans value⟩
  · refine .inr ⟨fun n' holds' => ?_, default⟩
    obtain ⟨n, holds, _⟩ := holds_permuted perm.symm holds'
    exact none n holds

end Order

section Text

variable {text : String} {d : Document} {tag : Option Tag} {entries : List (Node × Node)}

theorem of_text_fault {fault : DocumentFault} (failed : decode text = .error fault) :
    ofText text = .error (configuration fault) := by
  rw [ofText, failed]

theorem decode_parsed (parsed : Document.ofText text = .ok d) : decode text = ofDocument d := by
  rw [decode, parsed]
  rfl

theorem of_text_flaw (parsed : Document.ofText text = .ok d) (mapping : d.root = some (.mapping tag entries))
    (flaw : Flaw d entries) : ∃ fault, ofText text = .error (configuration fault) := by
  cases read : ofDocument d with
  | ok p => exact absurd flaw ((of_document_ok_iff mapping p).mp read).1
  | error fault => exact ⟨fault, of_text_fault ((decode_parsed parsed).trans read)⟩

theorem of_text_fitting (parsed : Document.ofText text = .ok d) (mapping : d.root = some (.mapping tag entries))
    (fits : ¬ Flaw d entries) {p : Params Float} (decoded : Decoded d entries p) :
    ofText text = p.validate.map fun _ => p := by
  have read : decode text = .ok p := (decode_parsed parsed).trans ((of_document_ok_iff mapping p).mpr ⟨fits, decoded⟩)
  rw [ofText, read]
  rfl

theorem of_bytes_text (text : String) : ofBytes text.toUTF8 = ofText text := by
  have read : String.fromUTF8? text.toUTF8 = some text := by
    have valid : text.toUTF8.IsValidUTF8 := text.isValidUTF8
    rw [String.fromUTF8?, dif_pos valid]
    rfl
  rw [ofBytes, read]

end Text

end Params

open Params

theorem parameters_of_mapping (text : String) :
    (∀ fault, Document.ofText text = .error fault → Params.ofText text = .error (configuration fault)) ∧
    (∀ d tag entries, Document.ofText text = .ok d → d.root = some (.mapping tag entries) →
      FieldTypes d ∧
      (Flaw d entries → ∃ fault, Params.ofText text = .error (configuration fault)) ∧
      (¬ Flaw d entries → ∃ p, Decoded d entries p ∧ (∀ q, Decoded d entries q → q = p) ∧
        (Params.ofText text = .ok p ↔ p.validate = .ok ()) ∧
        ∀ e, p.validate = .error e → Params.ofText text = .error e ∧ ∃ fault, e = invalidParameter fault) ∧
      ∀ other d' tag' entries', Document.ofText other = .ok d' → d'.root = some (.mapping tag' entries') →
        (contents d entries).Perm (contents d' entries') →
        (Flaw d' entries' ↔ Flaw d entries) ∧ (¬ Flaw d entries → Params.ofText other = Params.ofText text)) ∧
    Params.ofBytes text.toUTF8 = Params.ofText text := by
  refine ⟨?_, ?_, of_bytes_text text⟩
  · intro fault failed
    apply of_text_fault
    rw [decode, failed]
    rfl
  · intro d tag entries parsed mapping
    refine ⟨⟨fun f _ _ scalar null => null_read_iff scalar null f, fun f _ collection => collection_read collection f⟩,
      of_text_flaw parsed mapping, fun fits => ?_, ?_⟩
    · obtain ⟨p, decoded⟩ := decoded_exists fits
      have answer := of_text_fitting parsed mapping fits decoded
      refine ⟨p, decoded, fun q => decoded_unique mapping fits decoded, ?_, fun e rejected => ?_⟩
      · rw [answer]
        cases p.validate <;> simp [Except.map]
      · rw [answer, rejected]
        exact ⟨rfl, validate_fault rejected⟩
    · intro other d' tag' entries' otherParsed otherMapping perm
      have flaws : Flaw d' entries' ↔ Flaw d entries := ⟨flaw_permuted perm.symm, flaw_permuted perm⟩
      refine ⟨flaws, fun fits => ?_⟩
      obtain ⟨p, decoded⟩ := decoded_exists fits
      rw [of_text_fitting parsed mapping fits decoded, of_text_fitting otherParsed otherMapping
        (fun flaw => fits (flaws.mp flaw)) fun f => takes_permuted perm (decoded f)]

def plainEntry (key value : String) : Node × Node := (.scalar none .plain key, .scalar none .plain value)

def plainDocument (entries : List (Node × Node)) : Document := ⟨some (.mapping none entries), Anchors.empty⟩

-- A stride out of its range beside a seed that is null, in both orders, and beside a name of no field.
theorem parameters_of_mapping_unstrided :
    let entries := [plainEntry "seed" "~", plainEntry "stride" "0"]
    Document.ofText "seed: ~\nstride: 0\n" = .ok (plainDocument entries) ∧
      Params.ofText "seed: ~\nstride: 0\n" = .error (invalidParameter .zeroStride) ∧
      Params.ofText "stride: 0\nseed: ~\n" = .error (invalidParameter .zeroStride) ∧
      ∃ fault, Params.ofText "stride: 0\nnsamps: 10\n" = .error (configuration fault) := by
  intro entries
  have parsed : Document.ofText "seed: ~\nstride: 0\n" = .ok (plainDocument entries) := by cbv
  have turned : Document.ofText "stride: 0\nseed: ~\n" = .ok (plainDocument entries.reverse) := by cbv
  have strange : Document.ofText "stride: 0\nnsamps: 10\n" =
      .ok (plainDocument [plainEntry "stride" "0", plainEntry "nsamps" "10"]) := by cbv
  have zero : (plainDocument entries).unsigned? (.scalar none .plain "0") = some 0 := by decide +kernel
  have fits : ¬ Flaw (plainDocument entries) entries := by
    intro flaw
    cases flaw with
    | unknown key n member strange =>
        rcases List.mem_pair.mp member with same | same <;> cases same
        · exact strange .seed rfl
        · exact strange .stride rfl
    | repeated twice => exact twice (by decide)
    | mistyped f n holds value =>
        obtain ⟨key, member, named⟩ := holds
        rcases List.mem_pair.mp member with same | same <;> cases same
        · obtain rfl : f = .seed := Field.name_injective (Option.some.inj named).symm
          cases value
        · obtain rfl : f = .stride := Field.name_injective (Option.some.inj named).symm
          cases value
  obtain ⟨_, mapped, _⟩ := parameters_of_mapping "seed: ~\nstride: 0\n"
  obtain ⟨_, _, fitting, permuted⟩ := mapped _ _ _ parsed rfl
  obtain ⟨p, decoded, _, _, rejected⟩ := fitting fits
  have stride : p.stride = 0 := by
    rcases decoded .stride with ⟨n, ⟨key, member, named⟩, value⟩ | ⟨none, _⟩
    · rcases List.mem_pair.mp member with same | same <;> cases same
      · exact absurd (Option.some.inj named) (by decide)
      · exact Option.some.inj (value.symm.trans zero)
    · exact absurd ⟨_, List.mem_pair.mpr (Or.inr rfl), rfl⟩ (none (.scalar Option.none .plain "0"))
  have answer := (rejected (invalidParameter .zeroStride) (by rw [Params.validate, if_pos stride]; rfl)).1
  have order := (permuted _ _ _ _ turned rfl ((List.reverse_perm entries).symm.map _)).2 fits
  refine ⟨parsed, answer, order.trans answer, ?_⟩
  obtain ⟨_, mapped, _⟩ := parameters_of_mapping "stride: 0\nnsamps: 10\n"
  apply (mapped _ _ _ strange rfl).2.1
  refine .unknown _ _ (List.mem_pair.mpr (Or.inr rfl)) fun f => ?_
  cases f <;> decide

end OrbitalSpectra
