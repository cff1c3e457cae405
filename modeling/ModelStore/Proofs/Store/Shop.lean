import ModelStore.Client
import ModelStore.Proofs.Store.Addressing
import ModelStore.Proofs.Store.Documents

/-! The shop that is looked at where a run is followed in full: its site, its models and their
clients, and what its store answers. -/

namespace ModelStore

namespace Answer

def telling (status : Int) (body : Value) : Answer := ⟨status, none, none, .ok body⟩

def showing (fields : Fields) : Answer := telling 200 (.object fields)

def listing (docs : List Value) : Answer := showing [("docs", .array docs)]

def confirming : Answer := showing [("ok", .bool true)]

def taking (id rev : String) : Answer :=
  telling 201 (.object [("ok", .bool true), ("id", .str id), ("rev", .str rev)])

def refusing : Answer := telling 409 (.object [("error", .str "conflict")])

end Answer

namespace Documents

variable {s : Documents} {db id rev : String} {fields doc : Fields}

theorem serves_showing (shown : s.Shows ⟨db, id⟩ (.object fields)) :
    s.Serves (.get db id) (.showing fields) [] s :=
  .found rfl rfl shown

theorem serves_listing {query : Fields} {docs : List Value}
    (shown : ∀ d ∈ docs, ∃ id, s.Shows ⟨db, id⟩ d) :
    s.Serves (.find db query) (.listing docs) [] s :=
  .listed rfl rfl rfl shown

theorem serves_taking (named : Entries.get? doc "_id" = some (.str id))
    (current : Entries.get? doc "_rev" = s.revision? ⟨db, id⟩) (fresh : rev ∉ s.issued) :
    s.Serves (.insert db doc) (.taking id rev)
      [⟨some ⟨db, id⟩, doc, s.current ⟨db, id⟩, true⟩] (s.put ⟨db, id⟩ doc rev) :=
  .wrote (.put named current fresh) rfl

theorem serves_refusing (named : Entries.get? doc "_id" = some (.str id))
    (stale : Entries.get? doc "_rev" ≠ s.revision? ⟨db, id⟩) :
    s.Serves (.insert db doc) .refusing [⟨some ⟨db, id⟩, doc, s.current ⟨db, id⟩, false⟩] s :=
  .wrote (.conflict named stale) ⟨rfl, nofun⟩

end Documents

namespace Shop

def site : Site := ⟨⟨['h', 't', 't', 'p'], [], ['d', 'b'], some 5984, ['/'], none⟩, none⟩

theorem site_plain : site.Plain where
  absolute := rfl
  closed := ⟨[], rfl⟩
  kept := List.all_eq_true.1 (by decide : site.base.path.all Url.isPathChar = true)
  resolved := by
    intro p mem
    have empty : p = [] := by simpa [site, Text.cutChars] using mem
    rw [empty]
    rintro (same | same) <;> cases same
  unasked := rfl

def customerModel : ModelDefinition := ⟨"Customer", [], [], .default⟩

/-- Customers that share the database with other documents. -/
def customers : Handle := ⟨customerModel, "shop", some "kind", none⟩

/-- Customers that nothing tells apart from other documents. -/
def unmarked : Handle := ⟨customerModel, "shop", none, none⟩

def client (mark : Option String) (limit : Option { n : Nat // 1 ≤ n })
    (registry : Entries ModelDefinition) : Client :=
  .ofSettings ⟨none, some "u", some "p", "db", 5984, "http", some "shop", mark, limit, false,
    ⟨200, Nat.succ_pos 199⟩, Binary64.ofInt 30⟩ registry

def desk : Client := client none none [("Customer", customerModel)]

end Shop

end ModelStore
