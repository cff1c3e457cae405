import ModelStore.Proofs.Store.Replacing
import ModelStore.Proofs.Store.Updates

/-! The calls that write documents of a model, each with what its caller has to see to, what it
may send, and how it may end. Whatever other calls write in the meantime, each of them keeps
to that. -/

namespace ModelStore

inductive Operation where
  | replaceById (id data : Value)
  | save (data : Value)
  | replaceOrCreate (data : Value)
  | updateAttributes (id data : Value)
  | updateOrCreate (data : Value)
  | updateAll (pageSize : Nat) (filter data : Value)

def Program.void {α : Type} (p : Program α) : Program Unit :=
  p.andThen fun r => .done (r.map fun _ => ())

namespace Operation

def data : Operation → Value
  | replaceById _ data => data
  | save data => data
  | replaceOrCreate data => data
  | updateAttributes _ data => data
  | updateOrCreate data => data
  | updateAll _ _ data => data

def isBulk : Operation → Bool
  | updateAll _ _ _ => true
  | _ => false

def program (h : Handle) : Operation → Program Unit
  | replaceById id data => (Write.replace h id data).void
  | save data => (Save.save h data).void
  | replaceOrCreate data => (Save.replace h data).void
  | updateAttributes id data => (Write.merge h id data).void
  | updateOrCreate data => (Save.update h data).void
  | updateAll pageSize filter data => (Bulk.update pageSize h filter data).void

/-- The data of a call has no key twice, and it carries no revision or one that was given out
before the call began; the patch of many documents has neither id nor revision. -/
def Begins (issued : List String) (op : Operation) : Prop :=
  ∀ fields, Mapper.plainData op.data = .ok fields → (Entries.keys fields).Nodup ∧
    Dated issued fields ∧
    (op.isBulk = true → Entries.get? fields "_id" = none ∧ Entries.get? fields "_rev" = none)

/-- An update addresses the document that it reads. Its model's mark is no field by which the
store knows a document, and its data names none but by the id of the model. -/
def Addresses (h : Handle) : Operation → Prop
  | updateAttributes _ _ => h.Unreserved
  | updateOrCreate data =>
    h.Unreserved ∧ ∀ fields, Mapper.plainData data = .ok fields → Save.Unaddressed h fields
  | _ => True

/-- What an update writes over a document is its patch over the content of that document. -/
def Overlays (h : Handle) (old : Content) (doc : Fields) : Operation → Prop
  | updateAttributes id data =>
    ∃ patch, Mapper.plainData data = .ok patch ∧ h.Merges id.text patch old doc
  | updateOrCreate data =>
    ∃ patch, Mapper.plainData data = .ok patch ∧
      h.Merges (Save.idOf h patch).text patch old doc
  | updateAll _ _ data => ∃ patch, Mapper.plainData data = .ok patch ∧ h.Patches patch old doc
  | _ => True

/-- A write that a call may send. -/
structure Permits (h : Handle) (op : Operation) (w : Attempt) : Prop where
  overlays : w.accepted = true → ∀ old, w.old = some old → op.Overlays h old w.doc
  replaces : ∀ id data, op = replaceById id data → ∃ id', Write.replacement h id data = .ok w.doc ∧
    Entries.get? w.doc "_id" = some (.str id') ∧ w.place = some ⟨h.database, id'⟩

def Ends (ws : List Attempt) (r : Except Fault Unit) (op : Operation) : Prop :=
  ∀ id data, op = replaceById id data → Write.Settles ws r

variable {h : Handle} {start s : Documents} {ws : List Attempt} {permit : Attempt → Prop}

theorem safe_void {α : Type} {p : Program α} {goal : List Attempt → Except Fault Unit → Prop}
    (safe : Program.Safe start permit (fun _ ws r => goal ws (r.map fun _ => ())) p s ws) :
    Program.Safe start permit (fun _ ws r => goal ws r) p.void s ws :=
  Program.safe_andThen.2 safe

/-- Every call is safe: it sends only what it may, and ends only as it may. -/
theorem safe (op : Operation) (begins : op.Begins start.issued) (addresses : op.Addresses h)
    (sound : start.Sound) :
    Program.Safe start (op.Permits h) (fun _ ws r => op.Ends ws r) (op.program h) start [] := by
  cases op with
  | replaceById id data =>
    refine safe_void (Program.Safe.mono (Write.safe_replace ?_) fun t ws r settles id data _ => ?_)
    · rintro w doc id' whole named rfl place
      refine ⟨fun _ _ _ => trivial, fun id data same => ?_⟩
      cases same
      exact ⟨id', whole, named, place⟩
    · exact settles.map _
  | save data =>
    refine safe_void (Program.safe_of_permitted (fun w => ⟨fun _ _ _ => trivial, nofun⟩) ?_ _)
    exact fun t ws r => nofun
  | replaceOrCreate data =>
    refine safe_void (Program.safe_of_permitted (fun w => ⟨fun _ _ _ => trivial, nofun⟩) ?_ _)
    exact fun t ws r => nofun
  | updateAttributes id data =>
    refine safe_void (Program.Safe.mono (Write.safe_merge sound addresses .refl ?_ ?_)
      fun t ws r _ => nofun)
    · intro patch plain
      obtain ⟨distinct, dated, -⟩ := begins patch plain
      exact ⟨distinct, dated⟩
    · intro patch w plain merges
      exact ⟨fun taken old before => ⟨patch, plain, merges taken old before⟩, nofun⟩
  | updateOrCreate data =>
    refine safe_void (Program.Safe.mono (Save.safe_update sound addresses.1 ?_ ?_)
      fun t ws r _ => nofun)
    · intro values plain
      obtain ⟨distinct, dated, -⟩ := begins values plain
      exact ⟨distinct, dated, addresses.2 values plain⟩
    · intro values w plain merges
      exact ⟨fun taken old before => ⟨values, plain, merges taken old before⟩, nofun⟩
  | updateAll pageSize filter data =>
    refine safe_void (Program.Safe.mono (Bulk.safe_update sound ?_ ?_ pageSize filter)
      fun t ws r _ => nofun)
    · intro patch plain
      obtain ⟨distinct, -, bare⟩ := begins patch plain
      exact ⟨distinct, bare rfl⟩
    · intro patch w plain patches
      exact ⟨fun taken old before => ⟨patch, plain, patches taken old before⟩, nofun⟩

end Operation

end ModelStore
