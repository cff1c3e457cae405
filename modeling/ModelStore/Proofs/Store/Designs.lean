import ModelStore.Proofs.Index.Naming
import ModelStore.Proofs.Index.Plan
import ModelStore.Store.Reply

/-! The design documents of a database, and what a store makes of the calls about them. An index
is created in its design document or replaced there, and a design document is deleted at
its current revision only. From a listing of documents that hold one index each, named as
the document is, a model gets back exactly what they hold. -/

namespace ModelStore

/-- A design document: its revision, and the fields of its indexes as the store lists them. -/
structure Design where
  rev : String
  indexes : Entries Value

/-- The design documents of a database by their ids. -/
abbrev Designs := String → Option Design

def IndexField.Reads (raw : Value) (fields : List IndexField) : Prop :=
  ∃ items, raw = .array items ∧ items.mapM IndexField.ofValue = .ok fields

namespace Designs

def put (s : Designs) (id : String) (d : Option Design) : Designs :=
  fun other => if other = id then d else s other

def indexes (s : Designs) (id : String) : Entries Value := ((s id).map Design.indexes).getD []

/-- Whether an entry of a listing tells of an index of a design document. -/
def Tells (entry : Value) (id name : String) (raw : Value) : Prop :=
  ∃ definition, entry.get? "ddoc" = some (.str id) ∧ entry.get? "name" = some (.str name) ∧
    entry.get? "def" = some (.object definition) ∧ Entries.get? definition "fields" = some raw

/-- A listing tells of every index of a design document, and of others that are in none. -/
structure Lists (s : Designs) (entries : List Value) : Prop where
  objects : ∀ e ∈ entries, ∃ fields, e = .object fields
  told : ∀ e ∈ entries, ∀ id, e.get? "ddoc" = some (.str id) →
    ∃ name raw, Entries.get? (s.indexes id) name = some raw ∧ Tells e id name raw
  whole : ∀ id name raw, Entries.get? (s.indexes id) name = some raw →
    ∃ e ∈ entries, Tells e id name raw

/-- Whether a request asks for an index in a design document. -/
def Asks (body : Fields) (design name : String) (raw : Value) : Prop :=
  ∃ definition, Entries.get? body "ddoc" = some (.str design) ∧
    Entries.get? body "name" = some (.str name) ∧
    Entries.get? body "index" = some (.object definition) ∧
    Entries.get? definition "fields" = some raw

/-- What a store may answer to a call about design documents, and those documents afterwards.
Any call may fail with an error that does not tell of a missing document. -/
inductive Serves (s : Designs) : Call → Answer → Designs → Prop where
  | listed {db : String} {a : Answer} {fields : Fields} {entries : List Value}
      (sound : a.isError = false) (body : a.body = .ok (.object fields))
      (listing : Entries.get? fields "indexes" = some (.array entries))
      (lists : s.Lists entries) : Serves s (.listIndexes db) a s
  | found {db id : String} {a : Answer} {d : Design} {fields : Fields} (here : s id = some d)
      (sound : a.isError = false) (body : a.body = .ok (.object fields))
      (dated : Entries.get? fields "_rev" = some (.str d.rev)) : Serves s (.get db id) a s
  | missing {db id : String} {a : Answer} (absent : s id = none) (status : a.status = 404) :
      Serves s (.get db id) a s
  | deleted {db id : String} {a : Answer} {d : Design} (here : s id = some d)
      (sound : a.isError = false) : Serves s (.delete db id (.str d.rev)) a (s.put id none)
  | gone {db id : String} {rev : Value} {a : Answer} (absent : s id = none)
      (status : a.status = 404) : Serves s (.delete db id rev) a s
  | stale {db id : String} {rev : Value} {a : Answer} {d : Design} (here : s id = some d)
      (other : rev ≠ .str d.rev) (status : a.status = 409) : Serves s (.delete db id rev) a s
  | created {db design name rev : String} {body : Fields} {raw : Value} {a : Answer}
      (asks : Asks body design name raw) (sound : a.isError = false) :
      Serves s (.createIndex db body) a
        (s.put (Migration.designId design)
          (some ⟨rev, Entries.set (s.indexes (Migration.designId design)) name raw⟩))
  | failed {c : Call} {a : Answer} (failed : a.isError = true) (other : a.status ≠ 404) :
      Serves s c a s

variable {s : Designs} {h : Handle} {name : String} {fields : List IndexField}
  {i : PlacedIndex} {table : Entries PlacedIndex}

def Holds (s : Designs) (h : Handle) (name : String) (i : PlacedIndex) : Prop :=
  ∃ raw, Entries.get? (s.indexes (h.indexDesign i.place)) name = some raw ∧
    IndexField.Reads raw i.fields

/-- The indexes in the design documents of a model have fields that can be read. -/
def Readable (s : Designs) (h : Handle) : Prop :=
  ∀ place name raw, Entries.get? (s.indexes (h.indexDesign place)) name = some raw →
    ∃ fields, IndexField.Reads raw fields

/-- The indexes that count, one of each name. -/
structure Counts (s : Designs) (h : Handle) (table : Entries PlacedIndex) : Prop where
  distinct : (Entries.keys table).Nodup
  held : ∀ name i, Entries.get? table name = some i → s.Holds h name i
  whole : ∀ name i, s.Holds h name i → ∃ j, Entries.get? table name = some j

theorem Holds.unique {place : String} {other : List IndexField}
    (holds : s.Holds h name ⟨place, fields⟩) (holds' : s.Holds h name ⟨place, other⟩) :
    fields = other := by
  obtain ⟨raw, here, items, rfl, read⟩ := holds
  obtain ⟨raw', here', items', rfl, read'⟩ := holds'
  rw [here] at here'
  cases here'
  rw [read] at read'
  cases read'
  rfl

/-- The fields of the index that a model keeps under a name in its design document. -/
def Keeps (s : Designs) (h : Handle) (name : String) (fields : List IndexField) : Prop :=
  ∃ rev raw, s (h.indexDesign name) = some ⟨rev, [(name, raw)]⟩ ∧ IndexField.Reads raw fields

/-- Every design document of a model holds one index, which it is named after. -/
def Tidy (s : Designs) (h : Handle) : Prop :=
  ∀ name d, s (h.indexDesign name) = some d → ∃ fields, s.Keeps h name fields

theorem Keeps.holds (keeps : s.Keeps h name fields) : s.Holds h name ⟨name, fields⟩ := by
  obtain ⟨rev, raw, here, reads⟩ := keeps
  exact ⟨raw, by simp [indexes, here, Entries.get?_cons], reads⟩

theorem Tidy.keeps (tidy : s.Tidy h) {key : String} {raw : Value}
    (here : Entries.get? (s.indexes (h.indexDesign name)) key = some raw) :
    key = name ∧ ∃ fields, IndexField.Reads raw fields ∧ s.Keeps h name fields := by
  cases stored : s (h.indexDesign name) with
  | none =>
    rw [indexes, stored] at here
    cases here
  | some d =>
    obtain ⟨fields, keeps⟩ := tidy name d stored
    obtain ⟨rev, kept, same, reads⟩ := id keeps
    rw [indexes, same] at here
    by_cases own : name = key
    · simp [Entries.get?_cons, own] at here
      subst here
      exact ⟨own.symm, fields, reads, keeps⟩
    · simp [Entries.get?_cons, own] at here

theorem Tidy.holds_iff (tidy : s.Tidy h) :
    s.Holds h name i ↔ i.place = name ∧ s.Keeps h name i.fields := by
  obtain ⟨place, fields⟩ := i
  constructor
  · intro holds
    obtain ⟨raw, here, -⟩ := id holds
    obtain ⟨rfl, listed, -, keeps⟩ := tidy.keeps here
    exact ⟨rfl, holds.unique keeps.holds ▸ keeps⟩
  · rintro ⟨rfl, keeps⟩
    exact keeps.holds

theorem Tidy.readable (tidy : s.Tidy h) : s.Readable h := by
  intro place name raw here
  obtain ⟨-, fields, reads, -⟩ := tidy.keeps here
  exact ⟨fields, reads⟩

theorem Counts.tidy (counts : s.Counts h table) (tidy : s.Tidy h) :
    Entries.get? table name = some i ↔ i.place = name ∧ s.Keeps h name i.fields := by
  rw [← tidy.holds_iff]
  refine ⟨counts.held name i, fun holds => ?_⟩
  obtain ⟨place, fields⟩ := i
  obtain ⟨⟨place', fields'⟩, here⟩ := counts.whole name _ holds
  have holds' := counts.held name _ here
  obtain ⟨rfl, -⟩ := tidy.holds_iff.1 holds
  obtain ⟨rfl, -⟩ := tidy.holds_iff.1 holds'
  rw [here, holds.unique holds']

theorem Tells.ofEntry {entry raw : Value} (tells : Tells entry (h.indexDesign i.place) name raw)
    (reads : IndexField.Reads raw i.fields) :
    ListedIndex.ofEntry entry = .ok (h.ownIndex name i) := by
  obtain ⟨definition, design, named, given, found⟩ := tells
  obtain ⟨items, rfl, read⟩ := reads
  have members : ListedIndex.rawFields? entry = some (.array items) := by
    simp [ListedIndex.rawFields?, given, found]
  simp only [ListedIndex.ofEntry, named, design, members, Value.members, bind, Except.bind, read]
  rfl

theorem exists_selectOwned (n : Naming) (model : String) {entries : List Value}
    (objects : ∀ e ∈ entries, ∃ fields, e = .object fields) :
    ∃ mine, ListedIndex.selectOwned n model entries = .ok mine := by
  induction entries with
  | nil => exact ⟨[], rfl⟩
  | cons e rest ih =>
    obtain ⟨entry, rfl⟩ := objects e List.mem_cons_self
    obtain ⟨others, found⟩ := ih fun e mem => objects e (List.mem_cons_of_mem _ mem)
    obtain ⟨mine, first⟩ : ∃ mine, ListedIndex.owned n model (.object entry) = .ok mine := by
      simp only [ListedIndex.owned, Value.fieldsFor, bind, Except.bind]
      split <;> exact ⟨_, rfl⟩
    exact ⟨_, Except.bind_eq_ok.2 ⟨mine, first, Except.bind_eq_ok.2 ⟨others, found, rfl⟩⟩⟩

theorem selectOwned_ok (h : Handle) {entries : List Value}
    (objects : ∀ e ∈ entries, ∃ fields, e = .object fields) :
    ∃ mine, ListedIndex.selectOwned Naming.default h.name entries = .ok mine ∧
      ∀ e, e ∈ mine ↔
        e ∈ entries ∧ ∃ name, e.get? "ddoc" = some (.str (h.indexDesign name)) := by
  obtain ⟨mine, selected⟩ := exists_selectOwned Naming.default h.name objects
  refine ⟨mine, selected, fun e => ?_⟩
  rw [ListedIndex.mem_of_selectOwned selected, ListedIndex.owned_iff]
  rfl

theorem foldlM_ofEntry {entries : List Value}
    (told : ∀ e ∈ entries, ∃ name i, s.Holds h name i ∧
      ListedIndex.ofEntry e = .ok (h.ownIndex name i))
    (distinct : (Entries.keys table).Nodup)
    (held : ∀ name i, Entries.get? table name = some i → s.Holds h name i) :
    ∃ table', entries.foldlM (fun acc e => (ListedIndex.ofEntry e).map acc.set)
        (h.ownListing table) = .ok (h.ownListing table') ∧
      (Entries.keys table').Nodup ∧
      (∀ name i, Entries.get? table' name = some i → s.Holds h name i) ∧
      ∀ name, ((∃ i, Entries.get? table name = some i) ∨
          ∃ e ∈ entries, ∃ i, ListedIndex.ofEntry e = .ok (h.ownIndex name i)) →
        ∃ i, Entries.get? table' name = some i := by
  induction entries generalizing table with
  | nil => exact ⟨table, rfl, distinct, held, by simp⟩
  | cons e rest ih =>
    obtain ⟨name, i, holds, first⟩ := told e List.mem_cons_self
    have held' : ∀ key j, Entries.get? (Entries.set table name i) key = some j →
        s.Holds h key j := by
      intro key j here
      rw [Entries.get?_set] at here
      split at here
      · rename_i same
        cases here
        exact same ▸ holds
      · exact held key j here
    obtain ⟨table', others, distinct', sound, whole⟩ :=
      ih (fun e mem => told e (List.mem_cons_of_mem _ mem))
        (Entries.nodup_set distinct name i) held'
    refine ⟨table', ?_, distinct', sound, fun key here => whole key ?_⟩
    · rw [List.foldlM_cons, first]
      show rest.foldlM _ (Listing.set (h.ownListing table) (h.ownIndex name i)) = _
      rw [Listing.set_ownListing, others]
    · rw [Entries.get?_set]
      by_cases same : name = key
      · rw [if_pos same]
        exact .inl ⟨i, rfl⟩
      · rw [if_neg same]
        rcases here with before | ⟨e', mem, j, read⟩
        · exact .inl before
        · rcases List.mem_cons.1 mem with rfl | mem
          · have named : Value.str name = .str key :=
              congrArg ListedIndex.name (Except.ok.inj (first.symm.trans read))
            cases named
            exact absurd rfl same
          · exact .inr ⟨e', mem, j, read⟩

/-- From a listing a model gets a table of its indexes. -/
theorem Lists.listOwned {entries : List Value} (lists : s.Lists entries)
    (readable : s.Readable h) :
    ∃ table, ListedIndex.listOwned Naming.default h.name entries = .ok (h.ownListing table) ∧
      s.Counts h table := by
  obtain ⟨mine, selected, each⟩ := selectOwned_ok h lists.objects
  have told : ∀ e ∈ mine, ∃ name i, s.Holds h name i ∧
      ListedIndex.ofEntry e = .ok (h.ownIndex name i) := by
    intro e mem
    obtain ⟨member, place, design⟩ := (each e).1 mem
    obtain ⟨name, raw, here, tells⟩ := lists.told e member _ design
    obtain ⟨fields, reads⟩ := readable place name raw here
    exact ⟨name, ⟨place, fields⟩, ⟨raw, here, reads⟩,
      Tells.ofEntry (i := ⟨place, fields⟩) tells reads⟩
  have distinct : (Entries.keys ([] : Entries PlacedIndex)).Nodup := List.nodup_nil
  have held : ∀ name i, Entries.get? ([] : Entries PlacedIndex) name = some i →
      s.Holds h name i := by
    intro name i here
    cases here
  obtain ⟨table, listed, distinct, held, whole⟩ := foldlM_ofEntry told distinct held
  refine ⟨table, ?_, distinct, held, fun name i holds => whole name (.inr ?_)⟩
  · rw [ListedIndex.listOwned, selected]
    exact listed
  · obtain ⟨raw, here, reads⟩ := id holds
    obtain ⟨e, member, tells⟩ := lists.whole _ name raw here
    have own : e ∈ mine := (each e).2 ⟨member, i.place, tells.choose_spec.1⟩
    exact ⟨e, own, i, tells.ofEntry reads⟩

end Designs

end ModelStore
