import Mathlib.Data.List.Forall2
import Mathlib.Data.List.Nodup
import ModelStore.Proofs.Check
import ModelStore.Proofs.Index.Coverage

/-! The shape of the indexes that a model wants. The store takes an index only if its fields sort in
one direction, and uses it only for selectors whose fields it has. So every wanted index has the
fields that are declared for it, in their order and all in the direction of the first, and behind
them the discriminator unless it is one of them; a remark tells which of them were declared the
other way. -/

namespace ModelStore

inductive IndexField.Declared : String × Int → IndexField → Prop where
  | ascending (name : String) : Declared (name, 1) ⟨name, .asc⟩
  | descending (name : String) : Declared (name, -1) ⟨name, .desc⟩

/-- What a model wants under the name of an index, with the directions as they are declared. A
declared index takes the place of one that a property or the discriminator would have. -/
inductive ModelDefinition.Wants (d : ModelDefinition) (discriminator : Option String) :
    String → List IndexField → Prop where
  | declared {name : String} {i : IndexDeclaration} {fields : List IndexField}
      (mem : (name, i) ∈ d.indexes) (each : List.Forall₂ IndexField.Declared i.keys fields) :
      Wants d discriminator name fields
  | property {p : String} (indexed : p ∈ d.indexedProperties)
      (free : Candidate.propertyIndex p ∉ Entries.keys d.indexes) :
      Wants d discriminator (Candidate.propertyIndex p) [.ascending p]
  | mark {mark : String} (marked : discriminator.filter (· ≠ "") = some mark)
      (free : Candidate.propertyIndex mark ∉ Entries.keys d.indexes) :
      Wants d discriminator (Candidate.propertyIndex mark) [.ascending mark]

/-- A wanted index as the store takes it and selectors can use it. An empty discriminator counts as
none. -/
structure Candidate.Aligns (discriminator : Option String) (fields : List IndexField)
    (c : Candidate) : Prop where
  filled : c.fields ≠ []
  distinct : (c.fields.map IndexField.field).Nodup
  oneWay : ∀ f ∈ c.fields, some f.direction = fields.head?.map IndexField.direction
  named : c.fields.map IndexField.field = fields.map IndexField.field ++
    ((discriminator.filter (· ≠ "")).filter (· ∉ fields.map IndexField.field)).toList
  marked : ∀ mark, discriminator.filter (· ≠ "") = some mark →
    (c.fields.map IndexField.field).count mark = 1

namespace Noted

variable {α β : Type}

theorem warnings_bind {x : Noted α} {a : α} (ends : x.outcome = .ok a) (f : α → Noted β) :
    (x >>= f).warnings = x.warnings ++ (f a).warnings := by
  show (bind x f).warnings = _
  simp only [bind, ends]

theorem warnings_mapM {f : α → Noted β} {g : α → β} (each : ∀ a, (f a).outcome = .ok (g a))
    (items : List α) : (items.mapM f).warnings = items.flatMap fun a => (f a).warnings := by
  induction items with
  | nil => rfl
  | cons a rest ih =>
    rw [List.mapM_cons, warnings_bind (each a), warnings_bind (outcome_mapM each rest), ih,
      List.flatMap_cons]
    exact congrArg _ (List.append_nil _)

end Noted

namespace IndexField

variable {index : String} {fields : List IndexField}

theorem fields_of_declared {keys : Entries Int} (each : List.Forall₂ Declared keys fields) :
    fields.map field = Entries.keys keys := by
  induction each with
  | nil => rfl
  | cons first _ ih =>
    rw [List.map_cons, ih, Entries.keys_cons]
    cases first <;> rfl

theorem forall₂_declared_iff {keys : Entries Int} (ordered : ∀ e ∈ keys, e.2 = 1 ∨ e.2 = -1) :
    List.Forall₂ Declared keys fields ↔
      fields = keys.map fun e => ⟨e.1, if e.2 = 1 then .asc else .desc⟩ := by
  induction keys generalizing fields with
  | nil => rw [List.forall₂_nil_left_iff, List.map_nil]
  | cons e rest ih =>
    obtain ⟨first, later⟩ := List.forall_mem_cons.1 ordered
    rw [List.forall₂_cons_left_iff, List.map_cons]
    constructor
    · rintro ⟨f, others, declared, each, rfl⟩
      rw [← (ih later).1 each]
      cases declared <;> rfl
    · rintro rfl
      refine ⟨_, _, ?_, (ih later).2 rfl, rfl⟩
      obtain ⟨name, order⟩ := e
      rcases first with rfl | rfl
      · exact .ascending name
      · exact .descending name

theorem mem_coerceRemarks {w : Warning} : w ∈ coerceRemarks index fields ↔
    ∃ first names, fields.head? = some first ∧ names ≠ [] ∧
      names = (fields.filter fun f => f.direction ≠ first.direction).map field ∧
      w = .directionsCoerced index first.direction.name names := by
  cases fields with
  | nil => simp [coerceRemarks]
  | cons first rest =>
    have differ : ((first :: rest).filter fun f => f.direction ≠ first.direction).map field =
        differing (first :: rest) := by
      rw [List.filter_cons_of_neg (by simp)]
      rfl
    simp only [List.head?_cons, Option.some.injEq, exists_and_left, exists_eq_left', differ,
      coerceRemarks]
    cases differing (first :: rest) with
    | nil => simp
    | cons name names => simp

theorem direction_aligned {first : IndexField} {rest : List IndexField} {f : IndexField}
    (mem : f ∈ aligned (first :: rest)) : f.direction = first.direction := by
  rcases List.mem_cons.1 mem with rfl | mem
  · rfl
  · obtain ⟨g, -, rfl⟩ := List.mem_map.1 mem
    rfl

theorem direction_append {discriminator : Option String} (filled : fields ≠ []) {f : IndexField}
    (mem : f ∈ append discriminator (aligned fields)) :
    some f.direction = fields.head?.map direction := by
  cases fields with
  | nil => exact absurd rfl filled
  | cons first rest =>
    have front : f ∈ aligned (first :: rest) → f.direction = first.direction := direction_aligned
    refine congrArg some ?_
    unfold append at mem
    cases given : discriminator.filter (· ≠ "") with
    | none =>
      rw [given] at mem
      exact front mem
    | some mark =>
      rw [given] at mem
      change f ∈ if (aligned (first :: rest)).any (fun g => g.field = mark) then
        aligned (first :: rest) else aligned (first :: rest) ++ [⟨mark, first.direction⟩] at mem
      by_cases among : (aligned (first :: rest)).any fun g => g.field = mark
      · rw [if_pos among] at mem
        exact front mem
      · rw [if_neg among] at mem
        rcases List.mem_append.1 mem with mem | last
        · exact front mem
        · rw [List.mem_singleton.1 last]

end IndexField

namespace Candidate

variable {n : Naming} {d : ModelDefinition} {discriminator : Option String} {name : String}
  {fields : List IndexField}

theorem get?_foldl_propertyIndex {ps : List String} :
    Entries.get? (ps.foldl
      (fun acc p => Entries.set acc (propertyIndex p) [IndexField.ascending p]) []) name =
        some fields ↔ ∃ p ∈ ps, name = propertyIndex p ∧ fields = [.ascending p] := by
  by_cases some_ : ∃ p ∈ ps, propertyIndex p = name
  · obtain ⟨p, mem, rfl⟩ := some_
    rw [Entries.get?_foldl_set (v := [IndexField.ascending p])
      fun q _ same => by rw [propertyIndex_inj.1 same],
      if_pos (List.any_eq_true.2 ⟨p, mem, decide_eq_true rfl⟩), Option.some.injEq]
    constructor
    · rintro rfl
      exact ⟨p, mem, rfl, rfl⟩
    · rintro ⟨q, -, same, rfl⟩
      rw [propertyIndex_inj.1 same]
  · have absent : ∀ p ∈ ps, propertyIndex p ≠ name := fun p mem same => some_ ⟨p, mem, same⟩
    have unnamed : (ps.any fun p => propertyIndex p = name) = false := by
      simpa [List.any_eq_false] using absent
    rw [Entries.get?_foldl_set (v := []) fun p mem same => absurd same (absent p mem),
      unnamed, if_neg Bool.false_ne_true, Entries.get?_nil]
    constructor
    · rintro ⟨⟩
    · rintro ⟨p, mem, rfl, -⟩
      exact absurd rfl (absent p mem)

/-- The discriminator counts as one more indexed property, and declared indexes come before. -/
theorem get?_wanted_eq (distinct : (Entries.keys d.indexes).Nodup) :
    Entries.get? (wanted d discriminator) name =
      ((Entries.get? d.indexes name).map ofDeclaration).or
        (Entries.get? ((d.indexedProperties ++ (discriminator.filter (· ≠ "")).toList).foldl
          (fun acc p => Entries.set acc (propertyIndex p) [IndexField.ascending p]) []) name) := by
  have written : ∀ first : Entries (List IndexField),
      Entries.get? (d.indexes.foldl (fun acc e => Entries.set acc e.1 (ofDeclaration e.2)) first)
        name = ((Entries.get? d.indexes name).map ofDeclaration).or (Entries.get? first name) := by
    intro first
    have keys : Entries.keys (Entries.mapValues ofDeclaration d.indexes) =
        Entries.keys d.indexes := by
      simp [Entries.mapValues, Entries.keys, Function.comp_def]
    have updated := Entries.get?_update (keys ▸ distinct) first name
    rw [Entries.update, Entries.mapValues, List.foldl_map] at updated
    rw [updated]
    exact congrArg (Option.or · _) (Entries.get?_mapValues ofDeclaration d.indexes name)
  unfold wanted
  rw [written, List.foldl_append]
  refine congrArg (Option.or _) ?_
  cases discriminator.filter (· ≠ "") with
  | none => rfl
  | some mark =>
    simp only [Option.toList_some, List.foldl_cons, List.foldl_nil]
    split
    · rename_i there
      obtain ⟨fields, found⟩ := Option.isSome_iff_exists.1 there
      obtain ⟨p, -, same, rfl⟩ := get?_foldl_propertyIndex.1 found
      rw [propertyIndex_inj.1 same] at found ⊢
      rw [Entries.set_get? found]
    · rfl

theorem get?_wanted_iff (distinct : (Entries.keys d.indexes).Nodup)
    (sound : ∀ e ∈ d.indexes, e.2.Sound) :
    Entries.get? (wanted d discriminator) name = some fields ↔
      d.Wants discriminator name fields := by
  rw [get?_wanted_eq distinct]
  constructor
  · intro found
    cases here : Entries.get? d.indexes name with
    | some i =>
      rw [here] at found
      cases found
      have mem := Entries.mem_of_get? here
      exact .declared mem ((IndexField.forall₂_declared_iff (sound _ mem).ordered).2 rfl)
    | none =>
      rw [here] at found
      have free := Entries.get?_eq_none.1 here
      obtain ⟨p, mem, rfl, rfl⟩ := get?_foldl_propertyIndex.1 found
      rcases List.mem_append.1 mem with indexed | marked
      · exact .property indexed free
      · exact .mark (Option.mem_toList.1 marked) free
  · intro wants
    cases wants with
    | declared mem each =>
      rw [(IndexField.forall₂_declared_iff (sound _ mem).ordered).1 each,
        Entries.get?_of_mem distinct mem]
      rfl
    | @property p indexed free =>
      rw [Entries.get?_eq_none.2 free]
      exact get?_foldl_propertyIndex.2 ⟨p, List.mem_append_left _ indexed, rfl, rfl⟩
    | @mark mark marked free =>
      rw [Entries.get?_eq_none.2 free]
      exact get?_foldl_propertyIndex.2
        ⟨mark, List.mem_append_right _ (Option.mem_toList.2 marked), rfl, rfl⟩

theorem filled_of_wants (sound : ∀ e ∈ d.indexes, e.2.Sound)
    (wants : d.Wants discriminator name fields) :
    fields ≠ [] ∧ (fields.map IndexField.field).Nodup := by
  cases wants with
  | declared mem each =>
    have sound := sound _ mem
    have named := IndexField.fields_of_declared each
    refine ⟨?_, named ▸ sound.distinct⟩
    rintro rfl
    exact sound.filled (List.forall₂_nil_right_iff.1 each)
  | property => exact ⟨List.cons_ne_nil _ _, List.nodup_singleton _⟩
  | mark => exact ⟨List.cons_ne_nil _ _, List.nodup_singleton _⟩

/-- The candidate for a list of fields that has some, all of them different. -/
theorem aligns (design : String) (filled : fields ≠ [])
    (distinct : (fields.map IndexField.field).Nodup) :
    Aligns discriminator fields
      ⟨name, IndexField.append discriminator (IndexField.aligned fields), design⟩ := by
  have named := IndexField.append_fields discriminator (IndexField.aligned fields)
  rw [IndexField.aligned_fields] at named
  have all : ((IndexField.append discriminator (IndexField.aligned fields)).map
      IndexField.field).Nodup := by
    rw [named]
    cases last : (discriminator.filter (· ≠ "")).filter (· ∉ fields.map IndexField.field) with
    | none => simpa using distinct
    | some mark =>
      have fresh := of_decide_eq_true (Option.filter_eq_some_iff.1 last).2
      exact List.nodup_append.2 ⟨distinct, List.nodup_singleton _,
        fun f mem g other same => fresh (List.mem_singleton.1 other ▸ same ▸ mem)⟩
  refine ⟨?_, all, fun f mem => IndexField.direction_append filled mem, named, ?_⟩
  · intro none_
    have none_ := congrArg (List.map IndexField.field) none_
    rw [named] at none_
    exact filled (List.map_eq_nil_iff.1 (List.append_eq_nil_iff.1 none_).1)
  · intro mark marked
    refine List.count_eq_one_of_mem all ?_
    rw [named, marked, List.mem_append]
    by_cases mem : mark ∈ fields.map IndexField.field
    · exact .inl mem
    · exact .inr (Option.mem_toList.2 (Option.filter_eq_some_iff.2 ⟨rfl, decide_eq_true mem⟩))

theorem warnings_ofFields (model index : String) : (ofFields n model index discriminator
    fields).warnings = IndexField.coerceRemarks index fields :=
  (Noted.warnings_bind rfl _).trans (List.append_nil _)

theorem warnings_all : (all n d discriminator).warnings =
    (wanted d discriminator).flatMap fun e => IndexField.coerceRemarks e.1 e.2 := by
  refine (Noted.warnings_mapM (fun e => Noted.bind_eq_ok.2 ⟨_, rfl, rfl⟩) _).trans ?_
  refine congrArg (List.flatMap · _) (funext fun e => ?_)
  exact (Noted.warnings_bind rfl _).trans
    ((List.append_nil _).trans (warnings_ofFields d.name e.1))

end Candidate

/-- Each index that a model wants, and no other, is a candidate of the form that the store takes
and selectors use, in a design document of its own. The remarks tell for every list of fields
which of them were declared in another direction than the first. -/
theorem ModelDefinition.candidates_aligned (n : Naming) (discriminator : Option String)
    {raw : Check.RawDefinition} {d : ModelDefinition} (keyed : raw.indexes.Keyed)
    (checked : ∀ fields name i, raw.indexes = .object fields → (name, .index i) ∈ fields → i.Sound)
    (built : build raw = .ok d) :
    ∃ candidates, (Candidate.all n d discriminator).outcome = .ok candidates ∧
      (candidates.map fun e => e.2.design).Nodup ∧
      (∀ e ∈ candidates, ∃ fields, d.Wants discriminator e.1 fields ∧
        Candidate.Aligns discriminator fields e.2) ∧
      (∀ name fields, d.Wants discriminator name fields →
        ∃ c, (name, c) ∈ candidates ∧ Candidate.Aligns discriminator fields c) ∧
      ∀ w, w ∈ (Candidate.all n d discriminator).warnings ↔
        ∃ name fields first names, d.Wants discriminator name fields ∧
          fields.head? = some first ∧ names ≠ [] ∧
          names = (fields.filter fun f => f.direction ≠ first.direction).map IndexField.field ∧
          w = .directionsCoerced name first.direction.name names := by
  obtain ⟨distinct, sound⟩ := sound_of_build keyed checked built
  -- Making a candidate cannot fail, so all of them are made and every remark is kept.
  let made (e : String × List IndexField) : Candidate :=
    ⟨e.1, IndexField.append discriminator (IndexField.aligned e.2), n.designName d.name e.1⟩
  have wants : ∀ name fields, (name, fields) ∈ Candidate.wanted d discriminator ↔
      d.Wants discriminator name fields := by
    intro name fields
    rw [← Candidate.get?_wanted_iff distinct sound]
    exact ⟨Entries.get?_of_mem (Candidate.nodup_wanted d discriminator), Entries.mem_of_get?⟩
  have aligned : ∀ name fields, d.Wants discriminator name fields →
      Candidate.Aligns discriminator fields (made (name, fields)) := by
    intro name fields wanted
    obtain ⟨filled, different⟩ := Candidate.filled_of_wants sound wanted
    exact Candidate.aligns _ filled different
  have outcome : (Candidate.all n d discriminator).outcome =
      .ok ((Candidate.wanted d discriminator).map fun e => (e.1, made e)) :=
    Noted.outcome_mapM (fun e => Noted.bind_eq_ok.2 ⟨made e, rfl, rfl⟩) _
  refine ⟨_, outcome, ?_, ?_, ?_, ?_⟩
  · have designs : ((Candidate.wanted d discriminator).map fun e => (e.1, made e)).map
        (fun e => e.2.design) =
          (Entries.keys (Candidate.wanted d discriminator)).map (n.designName d.name) := by
      simp [made, Entries.keys, Function.comp_def]
    rw [designs]
    exact (Candidate.nodup_wanted d discriminator).map
      fun a b same => (String.append_right_inj _).1 same
  · intro e mem
    obtain ⟨⟨name, fields⟩, given, rfl⟩ := List.mem_map.1 mem
    have wanted := (wants name fields).1 given
    exact ⟨fields, wanted, aligned name fields wanted⟩
  · intro name fields wanted
    exact ⟨_, List.mem_map.2 ⟨(name, fields), (wants name fields).2 wanted, rfl⟩,
      aligned name fields wanted⟩
  · intro w
    rw [Candidate.warnings_all, List.mem_flatMap]
    constructor
    · rintro ⟨⟨name, fields⟩, mem, told⟩
      obtain ⟨first, names, told⟩ := IndexField.mem_coerceRemarks.1 told
      exact ⟨name, fields, first, names, (wants name fields).1 mem, told⟩
    · rintro ⟨name, fields, first, names, wanted, told⟩
      exact ⟨(name, fields), (wants name fields).2 wanted,
        IndexField.mem_coerceRemarks.2 ⟨first, names, told⟩⟩

/-- An index of three fields that are declared in two directions, the discriminator among them:
all of them come down, and the remark names the two that were to go up. -/
theorem candidates_aligned_people :
    let checked : IndexDeclaration := ⟨"names", [("name", 1)]⟩
    let raw : Check.RawDefinition := ⟨.str "Customer",
      .object [("name", .str "string"), ("age", .str "number")],
      .object [("people", .object [("age", .int (-1)), ("kind", .int 1), ("name", .int 1)]),
        ("names", .index checked)], .null⟩
    let fields : List IndexField := [⟨"age", .desc⟩, ⟨"kind", .asc⟩, ⟨"name", .asc⟩]
    raw.indexes.Keyed ∧ checked.Sound ∧ ∃ d candidates c, ModelDefinition.build raw = .ok d ∧
      d.Wants (some "kind") "people" fields ∧
      (Candidate.all .default d (some "kind")).outcome = .ok candidates ∧
      ("people", c) ∈ candidates ∧ c.fields.map IndexField.field = ["age", "kind", "name"] ∧
      (∀ f ∈ c.fields, f.direction = .desc) ∧
      .directionsCoerced "people" "desc" ["kind", "name"] ∈
        (Candidate.all .default d (some "kind")).warnings := by
  intro checked raw fields
  have keyed : raw.indexes.Keyed := by
    simp [raw, Entries.keys, Value.Keyed, Value.FieldsKeyed]
  have sound : checked.Sound := ⟨by decide, by decide, by decide⟩
  obtain ⟨d, built, listed⟩ : ∃ d, ModelDefinition.build raw = .ok d ∧
      d.indexes = [("people", ⟨"people", [("age", -1), ("kind", 1), ("name", 1)]⟩),
        ("names", checked)] := ⟨_, rfl, rfl⟩
  have given : ∀ entries name i, raw.indexes = .object entries → (name, .index i) ∈ entries →
      i.Sound := by
    rintro _ name i ⟨⟩ mem
    simp only [List.mem_cons, List.not_mem_nil, or_false] at mem
    rcases mem with same | same <;> cases same
    exact sound
  obtain ⟨candidates, made, -, -, all, remarks⟩ :=
    ModelDefinition.candidates_aligned .default (some "kind") keyed given built
  have wanted : d.Wants (some "kind") "people" fields :=
    .declared (i := ⟨"people", [("age", -1), ("kind", 1), ("name", 1)]⟩)
      (listed ▸ List.mem_cons_self) (.cons (IndexField.Declared.descending _)
        (.cons (IndexField.Declared.ascending _) (.cons (IndexField.Declared.ascending _) .nil)))
  obtain ⟨c, mem, aligns⟩ := all "people" fields wanted
  refine ⟨keyed, sound, _, candidates, c, built, wanted, made, mem, aligns.named, ?_, ?_⟩
  · exact fun f mem => Option.some.inj (aligns.oneWay f mem)
  · exact (remarks _).2 ⟨"people", fields, ⟨"age", .desc⟩, ["kind", "name"], wanted, rfl,
      List.cons_ne_nil _ _, rfl, rfl⟩

end ModelStore
