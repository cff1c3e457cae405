import ModelStore.Filter.Parse
import ModelStore.Proofs.Noted

/-! The grammar of where-filters. A value is read as a filter exactly if every part of it that
stands for a filter is null or an object, every part that stands for branches is a list of such
values, and the flags of every condition are text. The tree has the clauses of each key in the
order of the keys. A value that is refused is refused for a part of it that breaks one of these
rules. -/

namespace ModelStore

theorem Junction.ofName?_eq_none_iff {key : String} :
    ofName? key = none ↔ ∀ op, Junction.name op ≠ key := by
  constructor
  · rintro unnamed op rfl
    rw [ofName?_name] at unnamed
    cases unnamed
  · intro apart
    cases named : ofName? key with
    | none => rfl
    | some op => exact absurd (name_of_ofName? named) (apart op)

namespace Condition

/-- Flags may be left out, and may be null or text. -/
def FlagsFit (fields : Fields) : Prop :=
  ∀ v, Entries.get? fields optionsKey = some v → v = .null ∨ ∃ s, v = .str s

def flags (fields : Fields) : Option String := (Entries.get? fields optionsKey).bind Value.str?

/-- The conditions that a value puts on a field. An object has one for each operator that it
names; one that names none is compared as a whole, like any other value. -/
inductive Reads : Value → List Condition → Prop where
  | literal {v : Value} (plain : v.fields? = none) : Reads v [.literal v]
  | bare {fields : Fields} (fit : FlagsFit fields) (none_ : ∀ e ∈ fields, e.1 = optionsKey) :
      Reads (.object fields) [.literal (.object fields)]
  | operators {fields : Fields} (fit : FlagsFit fields)
      (some_ : ∃ e ∈ fields, e.1 ≠ optionsKey) :
      Reads (.object fields) ((fields.filter fun e => e.1 ≠ optionsKey).map fun e =>
        .operator e.1 e.2 (flags fields))

theorem options?_of_fit {fields : Fields} (fit : FlagsFit fields) :
    options? fields = .ok (flags fields) := by
  unfold options? flags
  cases given : Entries.get? fields optionsKey with
  | none => rfl
  | some v => rcases fit v given with rfl | ⟨s, rfl⟩ <;> rfl

theorem options?_of_not_fit {fields : Fields} (misfit : ¬FlagsFit fields) :
    ∃ v, Entries.get? fields optionsKey = some v ∧ ¬(v = .null ∨ ∃ s, v = .str s) ∧
      options? fields = .error (.optionsNotText v) := by
  obtain ⟨v, wrong⟩ := Classical.not_forall.1 misfit
  obtain ⟨given, wrong⟩ := Classical.not_imp.1 wrong
  refine ⟨v, given, wrong, ?_⟩
  unfold options?
  rw [given]
  split
  · contradiction
  · simp_all
  · simp_all
  · simp_all

theorem ofFields_of_fit {fields : Fields} (fit : FlagsFit fields) :
    ∃ conditions, ofFields fields = .ok conditions ∧ Reads (.object fields) conditions := by
  unfold ofFields
  rw [options?_of_fit fit, Except.map]
  cases named : fields.filter fun e => e.1 ≠ optionsKey with
  | nil =>
    refine ⟨_, rfl, .bare fit fun e mem => ?_⟩
    have all := List.filter_eq_nil_iff.1 named e mem
    simpa using all
  | cons e rest =>
    refine ⟨_, rfl, ?_⟩
    have mem : e ∈ fields.filter fun e => e.1 ≠ optionsKey := named ▸ List.mem_cons_self
    obtain ⟨mem, apart⟩ := List.mem_filter.1 mem
    have read := Reads.operators fit ⟨e, mem, by simpa using apart⟩
    rwa [named] at read

theorem Reads.flagsFit {inner : Fields} {conditions : List Condition}
    (reads : Reads (.object inner) conditions) : FlagsFit inner := by
  cases reads with
  | literal plain => cases plain
  | bare fit _ => exact fit
  | operators fit _ => exact fit

/-- A condition is read, or its flags are at fault. -/
theorem parse_cases (v : Value) :
    (∃ conditions, Condition.parse v = .ok conditions ∧ Reads v conditions) ∨
      ∃ inner w, v = .object inner ∧ Entries.get? inner optionsKey = some w ∧
        ¬(w = .null ∨ ∃ s, w = .str s) ∧ Condition.parse v = .error (.optionsNotText w) := by
  cases v with
  | object fields =>
    by_cases fit : FlagsFit fields
    · exact .inl (ofFields_of_fit fit)
    · obtain ⟨w, given, wrong, refused⟩ := options?_of_not_fit fit
      refine .inr ⟨fields, w, rfl, given, wrong, ?_⟩
      rw [Condition.parse, ofFields, refused]
      rfl
  | _ => exact .inl ⟨_, rfl, .literal rfl⟩

theorem Reads.parse_eq {v : Value} {conditions : List Condition} (reads : Reads v conditions) :
    Condition.parse v = .ok conditions := by
  cases reads with
  | literal plain =>
    cases v with
    | object fields => cases plain
    | _ => rfl
  | bare fit none_ =>
    rw [Condition.parse, ofFields, options?_of_fit fit, Except.map,
      List.filter_eq_nil_iff.2 fun e mem => by simpa using none_ e mem]
  | @operators fields fit some_ =>
    obtain ⟨e, mem, apart⟩ := some_
    rw [Condition.parse, ofFields, options?_of_fit fit, Except.map]
    cases named : fields.filter fun e => e.1 ≠ optionsKey with
    | nil => exact absurd (List.filter_eq_nil_iff.1 named e mem) (by simpa using apart)
    | cons e rest => rfl

end Condition

namespace Filter

/-- The values that are filters. -/
inductive WellFormed : Value → Prop where
  | nothing : WellFormed .null
  | object {fields : Fields}
      (lists : ∀ op v, (Junction.name op, v) ∈ fields → ∃ items, v.items? = some items)
      (branches : ∀ op v items, (Junction.name op, v) ∈ fields → v.items? = some items →
        ∀ b ∈ items, WellFormed b)
      (conditions : ∀ key inner, (key, .object inner) ∈ fields →
        (∀ op, Junction.name op ≠ key) → Condition.FlagsFit inner) :
      WellFormed (.object fields)

mutual

/-- A value and the filter that it stands for. -/
inductive Reads : Value → Filter → Prop where
  | nothing : Reads .null []
  | object {fields : Fields} {clauses : Filter} (entries : ReadsEntries fields clauses) :
      Reads (.object fields) clauses

inductive ReadsEntries : Fields → Filter → Prop where
  | nil : ReadsEntries [] []
  | logical (op : Junction) {v : Value} {items : List Value} {branches : List Filter}
      {rest : Fields} {clauses : Filter} (list : v.items? = some items)
      (each : ReadsAll items branches) (others : ReadsEntries rest clauses) :
      ReadsEntries ((op.name, v) :: rest) (.logical op branches :: clauses)
  | field {key : String} {v : Value} {conditions : List Condition} {rest : Fields}
      {clauses : Filter} (named : ∀ op, Junction.name op ≠ key)
      (states : Condition.Reads v conditions) (others : ReadsEntries rest clauses) :
      ReadsEntries ((key, v) :: rest) (conditions.map (.field key) ++ clauses)

inductive ReadsAll : List Value → List Filter → Prop where
  | nil : ReadsAll [] []
  | cons {v : Value} {branch : Filter} {rest : List Value} {branches : List Filter}
      (first : Reads v branch) (others : ReadsAll rest branches) :
      ReadsAll (v :: rest) (branch :: branches)

end

/-- A fault, and a part of the value that is at fault. -/
inductive Blames : Value → QueryFault → Prop where
  | notMapping {v : Value} (given : v ≠ .null) (other : v.fields? = none) :
      Blames v (.filterNotMapping v.typeName)
  | notList {fields : Fields} (op : Junction) {v : Value} (entry : (op.name, v) ∈ fields)
      (other : v.items? = none) : Blames (.object fields) (.branchesNotList op.name)
  | branch {fields : Fields} (op : Junction) {v b : Value} {items : List Value} {f : QueryFault}
      (entry : (op.name, v) ∈ fields) (list : v.items? = some items) (one : b ∈ items)
      (wrong : Blames b f) : Blames (.object fields) f
  | options {fields inner : Fields} {key : String} {v : Value}
      (entry : (key, .object inner) ∈ fields) (named : ∀ op, Junction.name op ≠ key)
      (given : Entries.get? inner optionsKey = some v)
      (wrong : ¬(v = .null ∨ ∃ s, v = .str s)) : Blames (.object fields) (.optionsNotText v)

theorem Blames.not_wellFormed {v : Value} {f : QueryFault} (blames : Blames v f) :
    ¬WellFormed v := by
  induction blames with
  | notMapping given other =>
    intro well
    cases well with
    | nothing => exact given rfl
    | object => cases other
  | notList op entry other =>
    rintro ⟨⟩
    rename_i lists _ _
    obtain ⟨items, list⟩ := lists op _ entry
    rw [list] at other
    cases other
  | branch op entry list one _ ih =>
    rintro ⟨⟩
    rename_i branches _
    exact ih (branches op _ _ entry list _ one)
  | options entry named given wrong =>
    rintro ⟨⟩
    rename_i conditions
    exact wrong (conditions _ _ entry named _ given)

theorem parseBranches_of_items {key : String} {v : Value} {items : List Value}
    (list : v.items? = some items) : parseBranches key v = parseAll items := by
  cases v with
  | array | tuple =>
    cases list
    rfl
  | _ => cases list

mutual

/-- Of every value either the filter that it stands for is read, or a part of it is at fault. -/
theorem parse_cases (v : Value) :
    (∃ tree, parse v = .ok tree ∧ Reads v tree) ∨ ∃ f, parse v = .error f ∧ Blames v f := by
  cases v with
  | object fields =>
    rcases parseEntries_cases fields fields fun _ mem => mem with
      ⟨clauses, parsed, reads⟩ | wrong
    · exact .inl ⟨clauses, parsed, .object reads⟩
    · exact .inr wrong
  | scalar s =>
    cases s with
    | null => exact .inl ⟨[], rfl, .nothing⟩
    | _ => exact .inr ⟨_, rfl, .notMapping (by rintro ⟨⟩) rfl⟩
  | _ => exact .inr ⟨_, rfl, .notMapping (by rintro ⟨⟩) rfl⟩

theorem parseEntries_cases (whole entries : Fields) (part : ∀ e ∈ entries, e ∈ whole) :
    (∃ clauses, parseEntries entries = .ok clauses ∧ ReadsEntries entries clauses) ∨
      ∃ f, parseEntries entries = .error f ∧ Blames (.object whole) f := by
  cases entries with
  | nil => exact .inl ⟨[], rfl, .nil⟩
  | cons e rest =>
    obtain ⟨key, v⟩ := e
    obtain ⟨entry, part⟩ := List.forall_mem_cons.1 part
    have others := parseEntries_cases whole rest part
    rw [parseEntries]
    split
    · rename_i op named
      cases Junction.name_of_ofName? named
      rcases parseBranches_cases op.name v with
        ⟨items, branches, list, parsed, each⟩ | ⟨other, parsed⟩ |
        ⟨items, f, list, parsed, b, mem, blames⟩
      · rw [parsed]
        rcases others with ⟨clauses, parsed, others⟩ | ⟨f, parsed, blames⟩
        · exact .inl ⟨.logical op branches :: clauses, by rw [parsed]; rfl,
            .logical op list each others⟩
        · exact .inr ⟨f, by rw [parsed]; rfl, blames⟩
      · exact .inr ⟨_, by rw [parsed]; rfl, .notList op entry other⟩
      · exact .inr ⟨f, by rw [parsed]; rfl, .branch op entry list mem blames⟩
    · rename_i unnamed
      have apart := Junction.ofName?_eq_none_iff.1 unnamed
      rcases Condition.parse_cases v with
        ⟨conditions, parsed, states⟩ | ⟨inner, w, rfl, given, wrong, parsed⟩
      · rw [parsed]
        rcases others with ⟨clauses, parsed, others⟩ | ⟨f, parsed, blames⟩
        · exact .inl ⟨conditions.map (.field key) ++ clauses, by rw [parsed]; rfl,
            .field apart states others⟩
        · exact .inr ⟨f, by rw [parsed]; rfl, blames⟩
      · exact .inr ⟨_, by rw [parsed]; rfl, .options entry apart given wrong⟩

theorem parseBranches_cases (key : String) (v : Value) :
    (∃ items branches, v.items? = some items ∧ parseBranches key v = .ok branches ∧
        ReadsAll items branches) ∨
      (v.items? = none ∧ parseBranches key v = .error (.branchesNotList key)) ∨
      ∃ items f, v.items? = some items ∧ parseBranches key v = .error f ∧
        ∃ b ∈ items, Blames b f := by
  cases v with
  | array items | tuple items =>
    rcases parseAll_cases items with ⟨branches, parsed, each⟩ | ⟨f, parsed, wrong⟩
    · exact .inl ⟨items, branches, rfl, parsed, each⟩
    · exact .inr (.inr ⟨items, f, rfl, parsed, wrong⟩)
  | _ => exact .inr (.inl ⟨rfl, rfl⟩)

theorem parseAll_cases (items : List Value) :
    (∃ branches, parseAll items = .ok branches ∧ ReadsAll items branches) ∨
      ∃ f, parseAll items = .error f ∧ ∃ b ∈ items, Blames b f := by
  cases items with
  | nil => exact .inl ⟨[], rfl, .nil⟩
  | cons v rest =>
    rw [parseAll]
    rcases parse_cases v with ⟨branch, parsed, first⟩ | ⟨f, parsed, blames⟩
    · rw [parsed]
      rcases parseAll_cases rest with ⟨branches, parsed, others⟩ | ⟨f, parsed, b, mem, blames⟩
      · exact .inl ⟨branch :: branches, by rw [parsed]; rfl, .cons first others⟩
      · exact .inr ⟨f, by rw [parsed]; rfl, b, List.mem_cons_of_mem _ mem, blames⟩
    · exact .inr ⟨f, by rw [parsed]; rfl, v, List.mem_cons_self, blames⟩

end

mutual

theorem Reads.parse_eq {v : Value} {tree : Filter} : Reads v tree → parse v = .ok tree
  | .nothing => rfl
  | .object entries => entries.parseEntries_eq

theorem ReadsEntries.parseEntries_eq {fields : Fields} {clauses : Filter} :
    ReadsEntries fields clauses → parseEntries fields = .ok clauses
  | .nil => rfl
  | .logical op list each others => by
    rw [parseEntries, Junction.ofName?_name]
    simp only [parseBranches_of_items list, each.parseAll_eq, others.parseEntries_eq]
    rfl
  | .field named states others => by
    rw [parseEntries, Junction.ofName?_eq_none_iff.2 named]
    simp only [states.parse_eq, others.parseEntries_eq]
    rfl

theorem ReadsAll.parseAll_eq {items : List Value} {branches : List Filter} :
    ReadsAll items branches → parseAll items = .ok branches
  | .nil => rfl
  | .cons first others => by
    rw [parseAll, first.parse_eq, others.parseAll_eq]
    rfl

end

theorem reads_of_parse {v : Value} {tree : Filter} (parsed : parse v = .ok tree) :
    Reads v tree := by
  rcases parse_cases v with ⟨tree', parsed', reads⟩ | ⟨f, refused, -⟩
  · cases parsed.symm.trans parsed'
    exact reads
  · cases parsed.symm.trans refused

mutual

/-- What stands for a filter is one. -/
theorem Reads.wellFormed {v : Value} {tree : Filter} : Reads v tree → WellFormed v
  | .nothing => .nothing
  | .object entries =>
    .object (fun op v mem => (entries.lists op v mem).imp fun _ h => h.1)
      (fun op v items mem list => by
        obtain ⟨items', list', well⟩ := entries.lists op v mem
        cases list.symm.trans list'
        exact well)
      entries.conditions

theorem ReadsEntries.lists {fields : Fields} {clauses : Filter} :
    ReadsEntries fields clauses → ∀ op v, (Junction.name op, v) ∈ fields →
      ∃ items, v.items? = some items ∧ ∀ b ∈ items, WellFormed b
  | .nil => nofun
  | .logical op' list each others => by
    intro op v mem
    rcases List.mem_cons.1 mem with same | mem
    · cases (Prod.mk.inj same).2
      exact ⟨_, list, each.wellFormed⟩
    · exact others.lists op v mem
  | .field named _ others => by
    intro op v mem
    rcases List.mem_cons.1 mem with same | mem
    · exact absurd (Prod.mk.inj same).1 (named op)
    · exact others.lists op v mem

theorem ReadsEntries.conditions {fields : Fields} {clauses : Filter} :
    ReadsEntries fields clauses → ∀ key inner, (key, .object inner) ∈ fields →
      (∀ op, Junction.name op ≠ key) → Condition.FlagsFit inner
  | .nil => nofun
  | .logical op list _ others => by
    intro key inner mem named
    rcases List.mem_cons.1 mem with same | mem
    · exact absurd (Prod.mk.inj same).1.symm (named op)
    · exact others.conditions key inner mem named
  | .field _ states others => by
    intro key inner mem named
    rcases List.mem_cons.1 mem with same | mem
    · cases (Prod.mk.inj same).2
      exact states.flagsFit
    · exact others.conditions key inner mem named

theorem ReadsAll.wellFormed {items : List Value} {branches : List Filter} :
    ReadsAll items branches → ∀ b ∈ items, WellFormed b
  | .nil => List.forall_mem_nil _
  | .cons first others => List.forall_mem_cons.2 ⟨first.wellFormed, others.wellFormed⟩

end

/-- Reading accepts the values that are filters and no others. What it makes of such a value is the
filter that stands for it, and for any other value it tells a part that is at fault. -/
theorem parse_exact (v : Value) :
    ((∃ tree, parse v = .ok tree) ↔ WellFormed v) ∧
      (∀ tree, parse v = .ok tree ↔ Reads v tree) ∧
      ((∃ f, parse v = .error f ∧ Blames v f ∧ (Fault.query f).kind = "CouchQueryError") ↔
        ¬WellFormed v) := by
  rcases parse_cases v with ⟨tree, parsed, reads⟩ | ⟨f, parsed, blames⟩
  · have well := reads.wellFormed
    refine ⟨⟨fun _ => well, fun _ => ⟨tree, parsed⟩⟩,
      fun tree' => ⟨fun parsed' => ?_, Reads.parse_eq⟩, ⟨?_, fun ill => absurd well ill⟩⟩
    · cases parsed.symm.trans parsed'
      exact reads
    · rintro ⟨f, refused, -⟩
      cases parsed.symm.trans refused
  · have ill := blames.not_wellFormed
    refine ⟨⟨?_, fun well => absurd well ill⟩, fun tree => ⟨fun parsed' => ?_, Reads.parse_eq⟩,
      fun _ => ill, fun _ => ⟨f, parsed, blames, rfl⟩⟩
    · rintro ⟨tree, parsed'⟩
      cases parsed.symm.trans parsed'
    · cases parsed.symm.trans parsed'

end Filter

end ModelStore
