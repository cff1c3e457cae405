import ModelStore.Proofs.Index.Candidate
import ModelStore.Proofs.Mapper.RoundTrip
import ModelStore.Proofs.Selector.Compilation
import ModelStore.Proofs.Selector.Meaning
import ModelStore.Proofs.Selector.Ordering

/-! Whether indexes cover what is stored and asked for. An index has its fields under the names that
the properties have in the model. Documents, selectors and orders each have a name of their own for
a property; the three agree on `_id` for the id, so no index of the id under another name covers
it. -/

namespace ModelStore

theorem Entries.get?_foldl_set {α β : Type} {name : β → String} {value : β → α} {items : List β}
    {key : String} {v : α} (agree : ∀ b ∈ items, name b = key → value b = v)
    (entries : Entries α) :
    get? (items.foldl (fun acc b => set acc (name b) (value b)) entries) key =
      if items.any fun b => name b = key then some v else get? entries key := by
  induction items generalizing entries with
  | nil => rfl
  | cons b rest ih =>
    rw [List.foldl_cons, ih fun c mem => agree c (List.mem_cons_of_mem _ mem), get?_set,
      List.any_cons]
    by_cases same : name b = key
    · simp [same, agree b List.mem_cons_self same]
    · simp [same]

theorem Entries.get?_map {α β : Type} (g : String × α → β) (entries : Entries α) (key : String) :
    get? (entries.map fun e => (e.1, g e)) key = (get? entries key).map fun v => g (key, v) := by
  induction entries with
  | nil => rfl
  | cons e rest ih =>
    rw [List.map_cons, get?_cons, ih, get?_cons]
    by_cases same : e.1 = key
    · subst same
      simp
    · simp [same]

namespace IndexField

theorem aligned_fields (fields : List IndexField) :
    (aligned fields).map field = fields.map field := by
  cases fields with
  | nil => rfl
  | cons first rest => simp [aligned, Function.comp_def]

theorem append_fields (discriminator : Option String) (fields : List IndexField) :
    (append discriminator fields).map field = fields.map field ++
      ((discriminator.filter (· ≠ "")).filter (· ∉ fields.map field)).toList := by
  unfold append
  cases discriminator.filter (· ≠ "") with
  | none => simp
  | some mark =>
    cases fields with
    | nil => rfl
    | cons first rest =>
      have among : ((first :: rest).any fun f => f.field = mark) =
          decide (mark ∈ (first :: rest).map field) := by
        rw [Bool.eq_iff_iff]
        simp only [List.any_eq_true, decide_eq_true_eq, List.mem_map]
      simp only [among, decide_eq_true_eq, Option.filter_some]
      by_cases mem : mark ∈ (first :: rest).map field
      · rw [if_pos mem, if_neg (not_not_intro mem)]
        exact (List.append_nil _).symm
      · rw [if_neg mem, if_pos mem]
        exact List.map_append

end IndexField

/-- The indexes that a model declares for its properties, with these in their order. An index of
its own takes the place of that of a property with the same name. -/
inductive ModelDefinition.Declares (d : ModelDefinition) : String → List String → Prop where
  | property {p : String} (indexed : p ∈ d.indexedProperties)
      (free : Candidate.propertyIndex p ∉ Entries.keys d.indexes) :
      Declares d (Candidate.propertyIndex p) [p]
  | composite {name : String} {i : IndexDeclaration} (declared : (name, i) ∈ d.indexes) :
      Declares d name (Entries.keys i.keys)

namespace Candidate

theorem propertyIndex_inj {p q : String} : propertyIndex p = propertyIndex q ↔ p = q :=
  String.append_left_inj _

theorem get?_wanted {d : ModelDefinition} (distinct : (Entries.keys d.indexes).Nodup)
    (discriminator : Option String) {index : String} {ps : List String}
    (declares : d.Declares index ps) : ∃ fields,
      Entries.get? (wanted d discriminator) index = some fields ∧
        fields.map IndexField.field = ps := by
  unfold wanted
  cases declares with
  | @property p indexed free =>
    refine ⟨[IndexField.ascending p], ?_, rfl⟩
    have properties : Entries.get? (d.indexedProperties.foldl (fun acc p =>
        Entries.set acc (propertyIndex p) [IndexField.ascending p]) []) (propertyIndex p) =
          some [IndexField.ascending p] := by
      rw [Entries.get?_foldl_set (v := [IndexField.ascending p])
        fun q _ same => by rw [propertyIndex_inj.1 same], if_pos]
      exact List.any_eq_true.2 ⟨p, indexed, decide_eq_true rfl⟩
    have unnamed : (d.indexes.any fun e => e.1 = propertyIndex p) = false := by
      rw [List.any_eq_false]
      intro e mem
      have other : e.1 ≠ propertyIndex p := fun same => free (same ▸ List.mem_map.2 ⟨e, mem, rfl⟩)
      simpa using other
    rw [Entries.get?_foldl_set (v := []) fun e mem same =>
      absurd (List.mem_map.2 ⟨e, mem, same⟩) free, unnamed, if_neg Bool.false_ne_true]
    split
    · exact properties
    · rename_i mark _
      split
      · exact properties
      · rename_i absent
        rw [Entries.get?_set_ne _ _ fun same => ?_, properties]
        rw [Entries.has, same, properties] at absent
        exact absent rfl
  | @composite name i declared =>
    refine ⟨ofDeclaration i, ?_, ?_⟩
    · rw [Entries.get?_foldl_set (v := ofDeclaration i), if_pos]
      · exact List.any_eq_true.2 ⟨_, declared, decide_eq_true rfl⟩
      · rintro ⟨other, j⟩ mem rfl
        have same := Entries.get?_of_mem distinct mem
        rw [Entries.get?_of_mem distinct declared] at same
        cases same
        rfl
    · simp [ofDeclaration, Entries.keys, Function.comp_def]

end Candidate

namespace Selector

variable {d : ModelDefinition} {path f : String}

theorem resolveBelow_ne_nil {p : Property} {names keys : List String} (some_ : names ≠ [])
    (resolved : resolveBelow p names = some keys) : keys ≠ [] := by
  rintro rfl
  unfold resolveBelow at resolved
  split at resolved
  · exact some_ rfl
  · split at resolved
    · split at resolved
      · split at resolved
        · cases resolved
        · split at resolved <;> simp at resolved
      · split at resolved <;> simp at resolved
    · split at resolved <;> simp at resolved

/-- A path is a key by itself unless it goes below a declared property. -/
theorem keysOf_eq_single_iff : keysOf d path = [f] ↔
    f = path ∧ (isDotted path = true → resolvePath d path = none) := by
  unfold keysOf resolvePath
  cases dotted : isDotted path with
  | false => simp [eq_comm]
  | true =>
    cases resolved : resolveNames d (Text.cut '.' path) with
    | none => simp [eq_comm]
    | some keys =>
      have pieces : 2 ≤ (Text.cut '.' path).length := by
        rw [Text.cut, List.length_map]
        exact Text.two_le_length_cutChars (by simpa [isDotted] using dotted)
      have long : keys ≠ [f] := by
        rintro rfl
        cases names : Text.cut '.' path with
        | nil => simp [names] at pieces
        | cons first rest =>
          rw [names, resolveNames] at resolved
          split at resolved
          · obtain ⟨below, deeper, same⟩ := Option.map_eq_some_iff.1 resolved
            cases same
            refine resolveBelow_ne_nil ?_ deeper rfl
            rintro rfl
            simp [names] at pieces
          · cases resolved
      simp [long]

end Selector

open Selector (fieldOf)

namespace Handle

variable {h : Handle} {p f : String}

/-- Documents have a property under a field: the id as text, any other value in its stored form. -/
def Stores (h : Handle) (p f : String) : Prop :=
  ∀ data source doc v, Mapper.plainData data = .ok source → (Entries.keys source).Nodup →
    Entries.get? source p = some v → v.isNull = false →
    (Mapper.ofHandle h).toDoc data = .ok doc →
    Entries.get? doc f = some (if p = h.idName then .str v.text else v.stored)

/-- Filters put conditions on a property, and selectors have these under a field, at any depth and
whatever stands beside them. -/
structure Selects (h : Handle) (p f : String) : Prop where
  read : ∀ v rest, Filter.parseEntries ((p, v) :: rest) = do
    let conditions ← Condition.parse v
    let clauses ← Filter.parseEntries rest
    .ok (conditions.map (.field p) ++ clauses)
  placed : ∀ selector c, Selector.compileClause h.definition selector (.field p c) = do
    let fragment ← (if p = h.idName then Selector.idCondition c else c).fragment
    pure (Selector.mergeAt selector f fragment)

/-- Orders by a property are sorts by a field, in either direction. -/
def Sorts (h : Handle) (p f : String) : Prop :=
  ∀ d : Direction, Order.build h (.array [.str (p ++ " " ++ d.word)]) = .ok (some [(f, d)])

theorem fieldOf_id (id : p = h.idName) : fieldOf h.definition p = "_id" := if_pos id

theorem fieldOf_other (other : p ≠ h.idName) : fieldOf h.definition p = p := if_neg other

theorem addressed_eq (h : Handle) (p : String) (c : Condition) :
    Selector.addressed h.definition p c =
      (fieldOf h.definition p, if p = h.idName then Selector.idCondition c else c) := by
  unfold Selector.addressed
  by_cases own : p = h.idName
  · rw [fieldOf_id own, if_pos own]
    exact if_pos own
  · rw [fieldOf_other own, if_neg own]
    exact if_neg own

theorem exists_toDoc_texts (h : Handle) (p v w : String) : ∃ source doc,
    (Mapper.ofHandle h).toDoc (.object source) = .ok doc ∧ (Entries.keys source).Nodup ∧
      ∀ key, Entries.get? source key = if p = key then some (.str v)
        else if h.idName = key then some (.str w) else none := by
  have found : ∀ key, Entries.get? (Entries.set [(h.idName, Value.str w)] p (.str v)) key =
      if p = key then some (.str v) else if h.idName = key then some (.str w) else none :=
    fun key => by simp only [Entries.get?_set, Entries.get?_cons, Entries.get?_nil]
  have distinct : (Entries.keys (Entries.set [(h.idName, Value.str w)] p (.str v))).Nodup :=
    Entries.nodup_set (by simp [Entries.keys]) p (Value.str v)
  obtain ⟨id, here, given⟩ : ∃ id, Entries.get? (Entries.set [(h.idName, Value.str w)] p (.str v))
      h.idName = some id ∧ id.isNull = false := by
    by_cases own : p = h.idName
    · exact ⟨.str v, by rw [found, if_pos own], rfl⟩
    · exact ⟨.str w, by rw [found, if_neg own, if_pos rfl], rfl⟩
  obtain ⟨doc, made⟩ := Mapper.exists_toDoc_of_silent (m := Mapper.ofHandle h) here given distinct
    fun key u got => by
      rw [found] at got
      split at got
      · cases got
        rfl
      split at got
      · cases got
        rfl
      · cases got
  exact ⟨_, doc, made, distinct, found⟩

theorem eq_id_of_get? {source doc : Fields} {v : String}
    (made : (Mapper.ofHandle h).toDoc (.object source) = .ok doc)
    (distinct : (Entries.keys source).Nodup)
    (here : Entries.get? source h.idName = some (.str v))
    (only : ∀ key, key ≠ h.idName → Entries.get? source key = none) (unlike : h.name ≠ v)
    (stored : Entries.get? doc f = some (.str v)) : f = "_id" ∧ h.mark? ≠ some f := by
  rw [Mapper.get?_toDoc made here rfl distinct] at stored
  split at stored
  · cases stored
    exact absurd rfl unlike
  rename_i unmarked
  split at stored
  · rename_i key
    exact ⟨key, unmarked⟩
  split at stored
  · cases stored
  · rename_i other
    rw [only f other] at stored
    cases stored

theorem eq_of_get? {source doc : Fields} {v w : String}
    (made : (Mapper.ofHandle h).toDoc (.object source) = .ok doc)
    (distinct : (Entries.keys source).Nodup)
    (here : Entries.get? source h.idName = some (.str w))
    (only : ∀ key, key ≠ h.idName → key ≠ p → Entries.get? source key = none)
    (unlike : h.name ≠ v) (apart : w ≠ v) (stored : Entries.get? doc f = some (.str v)) :
    f = p ∧ h.mark? ≠ some f ∧ p ≠ "_id" := by
  rw [Mapper.get?_toDoc made here rfl distinct] at stored
  split at stored
  · cases stored
    exact absurd rfl unlike
  rename_i unmarked
  split at stored
  · cases stored
    exact absurd rfl apart
  rename_i key
  split at stored
  · cases stored
  rename_i other
  by_cases same : f = p
  · subst same
    exact ⟨rfl, unmarked, key⟩
  · rw [only f other same] at stored
    cases stored

theorem of_stores (stores : h.Stores p f) :
    f = fieldOf h.definition p ∧ h.mark? ≠ some f ∧ (p = "_id" → h.idName = "_id") := by
  obtain ⟨source, doc, made, distinct, found⟩ := h.exists_toDoc_texts p (h.name ++ "x") h.name
  have stored : Entries.get? doc f = some (.str (h.name ++ "x")) := by
    rw [stores _ source doc (.str (h.name ++ "x")) rfl distinct (by rw [found, if_pos rfl]) rfl
      made]
    split <;> rfl
  have unlike : h.name ≠ h.name ++ "x" := by simp [String.ext_iff]
  by_cases own : p = h.idName
  · have here : Entries.get? source h.idName = some (.str (h.name ++ "x")) := by
      rw [found, if_pos own]
    have only : ∀ key, key ≠ h.idName → Entries.get? source key = none := by
      intro key other
      rw [found, if_neg fun same => other (same.symm.trans own), if_neg other.symm]
    obtain ⟨rfl, unmarked⟩ := eq_id_of_get? made distinct here only unlike stored
    exact ⟨(fieldOf_id own).symm, unmarked, fun named => own ▸ named⟩
  · have here : Entries.get? source h.idName = some (.str h.name) := by
      rw [found, if_neg own, if_pos rfl]
    have only : ∀ key, key ≠ h.idName → key ≠ p → Entries.get? source key = none := by
      intro key other different
      rw [found, if_neg different.symm, if_neg other.symm]
    obtain ⟨rfl, unmarked, key⟩ := eq_of_get? made distinct here only unlike unlike stored
    exact ⟨(fieldOf_other own).symm, unmarked, fun named => absurd named key⟩

theorem stores_fieldOf (unmarked : h.mark? ≠ some (fieldOf h.definition p))
    (free : p = "_id" → h.idName = "_id") : h.Stores p (fieldOf h.definition p) := by
  intro data source doc v plain distinct here given made
  have made' : (Mapper.ofHandle h).toDoc (.object source) = .ok doc := by
    refine Eq.trans ?_ made
    show _ = (Mapper.plainData data).bind _
    rw [plain]
    rfl
  by_cases own : p = h.idName
  · have here' : Entries.get? source (Mapper.ofHandle h).idName = some v := by
      rw [← here, own]
      rfl
    rw [fieldOf_id own] at unmarked ⊢
    rw [if_pos own, Mapper.get?_id_toDoc made' here' given]
    exact congrArg (fun s => some (Value.str s)) (if_neg unmarked)
  · rw [fieldOf_other own] at unmarked ⊢
    have key : p ≠ "_id" := fun named => own (named.trans (free named).symm)
    rw [if_neg own, Mapper.get?_toDoc_field made' distinct unmarked key own, here,
      Option.filter_some, if_pos (by rw [given]; rfl)]
    rfl

/-- Documents have the id under `_id` and every other property under its own name, where neither
the discriminator nor the id takes its place. -/
theorem stores_iff : h.Stores p f ↔
    f = fieldOf h.definition p ∧ h.mark? ≠ some f ∧ (p = "_id" → h.idName = "_id") := by
  refine ⟨of_stores, ?_⟩
  rintro ⟨rfl, unmarked, free⟩
  exact stores_fieldOf unmarked free

theorem keysOf_fieldOf_iff : Selector.keysOf h.definition (fieldOf h.definition p) = [f] ↔
    f = fieldOf h.definition p ∧ (p ≠ h.idName → Selector.isDotted p = true →
      Selector.resolvePath h.definition p = none) := by
  rw [Selector.keysOf_eq_single_iff]
  refine and_congr_right fun _ => ?_
  by_cases own : p = h.idName
  · have plain : Selector.isDotted "_id" = false := by decide
    rw [fieldOf_id own, plain]
    simp [own]
  · rw [fieldOf_other own]
    simp [own]

theorem compileClause_field (h : Handle) (p : String) (selector : Fields) (c : Condition) :
    Selector.compileClause h.definition selector (.field p c) =
      ((if p = h.idName then Selector.idCondition c else c).fragment >>= fun fragment =>
        pure (Selector.place selector
          (Selector.keysOf h.definition (fieldOf h.definition p)) fragment)) := by
  rw [Selector.compileClause, addressed_eq]

theorem keysOf_of_selects (selects : h.Selects p f) :
    Selector.keysOf h.definition (fieldOf h.definition p) = [f] := by
  have literal : (if p = h.idName then Selector.idCondition (.literal (.str ""))
      else .literal (.str "")).fragment = pure (.str "") := by
    split <;> rfl
  have placed := (compileClause_field h p [] (.literal (.str ""))).symm.trans (selects.placed [] _)
  rw [literal, pure_bind, pure_bind] at placed
  have same : Selector.place [] (Selector.keysOf h.definition (fieldOf h.definition p))
      (.str "") = [(f, .str "")] := Except.ok.inj (congrArg Noted.outcome placed)
  cases path : Selector.keysOf h.definition (fieldOf h.definition p) with
  | nil => exact absurd path (Selector.keysOf_ne_nil _ _)
  | cons first rest =>
    rw [path, Selector.place, Selector.mergeAt_eq] at same
    cases rest with
    | nil =>
      cases same
      rfl
    | cons next rest => cases same

theorem name_of_selects (selects : h.Selects p f) : Junction.ofName? p = none := by
  cases name : Junction.ofName? p with
  | none => rfl
  | some j =>
    have unread : Filter.parseEntries [(p, .str "")] = .error (.branchesNotList p) := by
      rw [Filter.parseEntries, name]
      rfl
    have read := unread.symm.trans (selects.read (.str "") [])
    cases read

theorem selects_iff : h.Selects p f ↔ f = fieldOf h.definition p ∧ Junction.ofName? p = none ∧
    (p ≠ h.idName → Selector.isDotted p = true → Selector.resolvePath h.definition p = none) := by
  rw [and_left_comm, ← keysOf_fieldOf_iff]
  refine ⟨fun selects => ⟨name_of_selects selects, keysOf_of_selects selects⟩, ?_⟩
  rintro ⟨name, single⟩
  refine ⟨fun v rest => ?_, fun selector c => ?_⟩
  · rw [Filter.parseEntries, name]
  · rw [compileClause_field, single]
    rfl

theorem sorts_iff : h.Sorts p f ↔
    f = fieldOf h.definition (Text.strip p) ∧ Text.strip p ≠ "" := by
  have built : ∀ d : Direction, Order.build h (.array [.str (p ++ " " ++ d.word)]) =
      .ok (Order.nonEmpty (Order.key? h.idName (p ++ " " ++ d.word)).toList) := by
    intro d
    show Except.ok (Order.nonEmpty ([_].filterMap _)) = _
    rw [List.filterMap_cons]
    cases Order.key? h.idName (p ++ " " ++ d.word) <;> rfl
  by_cases none_ : Text.strip p = ""
  · constructor
    · intro sorts
      have asked := sorts .desc
      rw [built, Order.key?_word_of_blank _ none_] at asked
      cases asked
    · rintro ⟨-, some_⟩
      exact absurd none_ some_
  · have sorted : ∀ d : Direction, Order.build h (.array [.str (p ++ " " ++ d.word)]) =
        .ok (some [(fieldOf h.definition (Text.strip p), d)]) := fun d => by
      rw [built, Order.key?_word d none_]
      rfl
    constructor
    · intro sorts
      have asked := (sorted .asc).symm.trans (sorts .asc)
      cases asked
      exact ⟨rfl, none_⟩
    · rintro ⟨rfl, -⟩
      exact sorted

/-- The fields of the indexes that a model declares, and the names that its properties have
elsewhere. Such an index has the properties for its fields, each under the name that it has in the
model, and the discriminator. A property has the name `f` in documents, selectors and orders just
under the conditions that are given here, so the index covers it just if these hold for its own
name. -/
theorem candidates_cover_iff (n : Naming) (h : Handle)
    (distinct : (Entries.keys h.definition.indexes).Nodup) {index : String} {ps : List String}
    (declares : h.definition.Declares index ps) :
    ∃ candidates c, (Candidate.all n h.definition h.discriminator).outcome = .ok candidates ∧
      Entries.get? candidates index = some c ∧
      c.fields.map IndexField.field = ps ++ (h.mark?.filter (· ∉ ps)).toList ∧
      ∀ p ∈ ps, ∀ f,
        (h.Stores p f ↔
          f = fieldOf h.definition p ∧ h.mark? ≠ some f ∧ (p = "_id" → h.idName = "_id")) ∧
        (h.Selects p f ↔ f = fieldOf h.definition p ∧ Junction.ofName? p = none ∧
          (p ≠ h.idName → Selector.isDotted p = true →
            Selector.resolvePath h.definition p = none)) ∧
        (h.Sorts p f ↔ f = fieldOf h.definition (Text.strip p) ∧ Text.strip p ≠ "") := by
  obtain ⟨fields, found, named⟩ := Candidate.get?_wanted distinct h.discriminator declares
  let made (e : String × List IndexField) : Candidate :=
    ⟨e.1, IndexField.append h.discriminator (IndexField.aligned e.2),
      n.designName h.definition.name e.1⟩
  refine ⟨_, made (index, fields), Noted.outcome_mapM (g := fun e => (e.1, made e)) (fun e =>
    Noted.bind_eq_ok.2 ⟨made e, rfl, rfl⟩) _, ?_, ?_,
      fun p _ f => ⟨stores_iff, selects_iff, sorts_iff⟩⟩
  · rw [Entries.get?_map, found]
    rfl
  · show (IndexField.append _ (IndexField.aligned fields)).map _ = _
    rw [IndexField.append_fields, IndexField.aligned_fields, named]
    rfl

def listed : Handle where
  definition := ⟨"Customer", [("id", ⟨.string, true, true, [], none⟩),
    ("name", ⟨.string, false, false, [], none⟩), ("age", ⟨.number, false, false, [], none⟩)],
    [("people", ⟨"people", [("name", 1), ("age", 1)]⟩)], .default⟩
  database := "shop"
  discriminator := some "kind"
  modelSelector := none

/-- The index of name and age covers both. -/
theorem candidates_cover_people :
    ∃ candidates c, (Candidate.all .default listed.definition (some "kind")).outcome =
        .ok candidates ∧
      Entries.get? candidates "people" = some c ∧
      c.fields.map IndexField.field = ["name", "age", "kind"] ∧
      ∀ p ∈ ["name", "age"], listed.Stores p p ∧ listed.Selects p p ∧ listed.Sorts p p := by
  have declares : listed.definition.Declares "people" ["name", "age"] :=
    .composite (i := ⟨"people", [("name", 1), ("age", 1)]⟩) List.mem_cons_self
  obtain ⟨candidates, c, made, found, fields, covers⟩ :=
    candidates_cover_iff .default listed (by decide) declares
  refine ⟨candidates, c, made, found, fields, fun p mem => ?_⟩
  obtain ⟨stores, selects, sorts⟩ := covers p mem p
  have plain : p = fieldOf listed.definition p ∧ listed.mark? ≠ some p ∧ p ≠ "_id" ∧
      Junction.ofName? p = none ∧ Selector.isDotted p = false ∧ Text.strip p = p ∧ p ≠ "" := by
    simp only [List.mem_cons, List.not_mem_nil, or_false] at mem
    rcases mem with rfl | rfl <;> decide
  obtain ⟨own, unmarked, apart, name, undotted, trimmed, some_⟩ := plain
  refine ⟨stores.2 ⟨own, unmarked, fun named => absurd named apart⟩,
    selects.2 ⟨own, name, fun _ dotted => ?_⟩, sorts.2 ⟨by rwa [trimmed], by rwa [trimmed]⟩⟩
  rw [undotted] at dotted
  cases dotted

/-- The index of the id has a field that no document has and that nothing asks for. -/
theorem id_index_covers_nothing :
    ∃ candidates c, (Candidate.all .default listed.definition (some "kind")).outcome =
        .ok candidates ∧
      Entries.get? candidates "id_index" = some c ∧
      c.fields.map IndexField.field = ["id", "kind"] ∧
      (Mapper.ofHandle listed).toDoc (.object [("id", .str "7")]) =
        .ok [("_id", .str "7"), ("kind", .str "Customer")] ∧
      (Selector.build listed (.object [("id", .str "7")])).outcome =
        .ok [("kind", .str "Customer"), ("_id", .str "7")] ∧
      Order.build listed (.array [.str "id ASC"]) = .ok (some [("_id", .asc)]) := by
  refine ⟨_, _, rfl, rfl, rfl, rfl, rfl, ?_⟩
  rfl

end Handle

end ModelStore
