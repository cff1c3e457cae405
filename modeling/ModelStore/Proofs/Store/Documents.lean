import ModelStore.Proofs.Json.Encoding
import ModelStore.Store.Call
import ModelStore.Store.Reply
import Mathlib.Data.List.Defs

/-! What a store makes of the calls that read and write documents. It takes a write to a
document under the document's current revision only, and a new document only without one;
every document that it takes gets a revision that was never given out before. Reads are
answered from the documents as they stand. So a revision names the content that was stored
with it: a document that is met under an old revision was not touched in between. -/

namespace ModelStore

structure Place where
  database : String
  id : String
deriving DecidableEq

abbrev Content := String → Option Value

/-- The documents of a store, and the revisions that it has given out. -/
structure Documents where
  current : Place → Option Content
  issued : List String

/-- A document that reached a store: where it belongs, if it belongs anywhere, what was there
before, and whether it was taken. -/
structure Attempt where
  place : Option Place
  doc : Fields
  old : Option Content
  accepted : Bool

namespace Documents

/-- A document as it is kept, under its id and its new revision. -/
def kept (doc : Fields) (id rev : String) : Content := fun key =>
  if key = "_id" then some (.str id)
  else if key = "_rev" then some (.str rev)
  else Entries.get? doc key

def put (s : Documents) (p : Place) (doc : Fields) (rev : String) : Documents where
  current q := if q = p then some (kept doc p.id rev) else s.current q
  issued := rev :: s.issued

def revision? (s : Documents) (p : Place) : Option Value := (s.current p).bind fun c => c "_rev"

/-- Every document has the id of its place, and a revision that was given out. -/
structure Sound (s : Documents) : Prop where
  named : ∀ p c, s.current p = some c → c "_id" = some (.str p.id)
  dated : ∀ p c, s.current p = some c → ∃ rev ∈ s.issued, c "_rev" = some (.str rev)

/-- A table that is read off the document of a place. -/
def Shows (s : Documents) (p : Place) (v : Value) : Prop :=
  ∃ fields, v = .object fields ∧ Json.Table fields ∧ s.current p = some (Entries.get? fields)

/-- What becomes of one document sent to a database. A document without an id is put where
there is none; any other that names no place is improper. -/
inductive Writes (s : Documents) (db : String) (doc : Fields) : Attempt → Documents → Prop where
  | put {id rev : String} (named : Entries.get? doc "_id" = some (.str id))
      (current : Entries.get? doc "_rev" = s.revision? ⟨db, id⟩) (fresh : rev ∉ s.issued) :
      Writes s db doc ⟨some ⟨db, id⟩, doc, s.current ⟨db, id⟩, true⟩ (s.put ⟨db, id⟩ doc rev)
  | conflict {id : String} (named : Entries.get? doc "_id" = some (.str id))
      (stale : Entries.get? doc "_rev" ≠ s.revision? ⟨db, id⟩) :
      Writes s db doc ⟨some ⟨db, id⟩, doc, s.current ⟨db, id⟩, false⟩ s
  | created {id rev : String} (unnamed : Entries.get? doc "_id" = none)
      (undated : Entries.get? doc "_rev" = none) (free : s.current ⟨db, id⟩ = none)
      (fresh : rev ∉ s.issued) :
      Writes s db doc ⟨some ⟨db, id⟩, doc, none, true⟩ (s.put ⟨db, id⟩ doc rev)
  | improper (unnamed : ∀ id, Entries.get? doc "_id" ≠ some (.str id))
      (given : Entries.get? doc "_id" = none → Entries.get? doc "_rev" ≠ none) :
      Writes s db doc ⟨none, doc, none, false⟩ s

inductive WritesAll (db : String) : Documents → List Value → List Attempt → Documents → Prop where
  | nil (s : Documents) : WritesAll db s [] [] s
  | cons {s t u : Documents} {doc : Fields} {docs : List Value} {w : Attempt} {ws : List Attempt}
      (first : s.Writes db doc w t) (rest : WritesAll db t docs ws u) :
      WritesAll db s (.object doc :: docs) (w :: ws) u

end Documents

namespace Attempt

def Answered (w : Attempt) (a : Answer) : Prop :=
  if w.accepted then a.isError = false
  else if w.place.isSome then a.status = 409 ∧ a.body ≠ .error .tooDeep
  else a.isError = true

/-- How a write of many is reported in the answer for all of them. -/
def Reported (w : Attempt) (entry : Value) : Prop :=
  ∃ fields, entry = .object fields ∧
    (Value.ofOption (Entries.get? fields "error")).truthy = !w.accepted

end Attempt

namespace Documents

/-- What a store may answer to a call, what it was asked to write by it, and the documents
afterwards. -/
inductive Serves (s : Documents) : Call → Answer → List Attempt → Documents → Prop where
  | found {db id : String} {a : Answer} {v : Value} (sound : a.isError = false)
      (body : a.body = .ok v) (shown : s.Shows ⟨db, id⟩ v) : Serves s (.get db id) a [] s
  | missing {db id : String} {a : Answer} (absent : s.current ⟨db, id⟩ = none)
      (status : a.status = 404) : Serves s (.get db id) a [] s
  | tagged {db id rev : String} {a : Answer} (sound : a.isError = false)
      (tag : a.revision? = some rev) (dated : s.revision? ⟨db, id⟩ = some (.str rev)) :
      Serves s (.head db id) a [] s
  | untagged {db id : String} {a : Answer} (absent : s.current ⟨db, id⟩ = none)
      (status : a.status = 404) : Serves s (.head db id) a [] s
  | listed {db : String} {query fields : Fields} {docs : List Value} {a : Answer}
      (sound : a.isError = false) (body : a.body = .ok (.object fields))
      (page : Entries.get? fields "docs" = some (.array docs))
      (shown : ∀ d ∈ docs, ∃ id, s.Shows ⟨db, id⟩ d) : Serves s (.find db query) a [] s
  | unlisted {db : String} {query : Fields} {a : Answer} (failed : a.isError = true) :
      Serves s (.find db query) a [] s
  | wrote {db : String} {doc : Fields} {a : Answer} {w : Attempt} {t : Documents}
      (write : s.Writes db doc w t) (told : w.Answered a) : Serves s (.insert db doc) a [w] t
  | wroteAll {db : String} {docs entries : List Value} {a : Answer} {ws : List Attempt}
      {t : Documents} (writes : WritesAll db s docs ws t) (sound : a.isError = false)
      (body : a.body = .ok (.array entries)) (told : List.Forall₂ Attempt.Reported ws entries) :
      Serves s (.bulk db docs) a ws t

inductive Evolves (s : Documents) : Documents → Prop where
  | refl : Evolves s s
  | put {t : Documents} (earlier : Evolves s t) (p : Place) (doc : Fields) {rev : String}
      (fresh : rev ∉ t.issued) : Evolves s (t.put p doc rev)

variable {s t u : Documents} {p : Place} {c : Content}

theorem revision?_of_current (here : s.current p = some c) : s.revision? p = c "_rev" := by
  rw [revision?, here]
  rfl

theorem Evolves.trans (h : s.Evolves t) (h' : t.Evolves u) : s.Evolves u := by
  induction h' with
  | refl => exact h
  | put _ p doc fresh ih => exact .put ih p doc fresh

theorem Writes.evolves {db : String} {doc : Fields} {w : Attempt} (h : s.Writes db doc w t) :
    s.Evolves t := by
  cases h with
  | put named current fresh => exact .put .refl _ _ fresh
  | conflict named stale => exact .refl
  | created unnamed undated free fresh => exact .put .refl _ _ fresh
  | improper unnamed given => exact .refl

/-- A write that was taken from an existing document carried that document's revision. -/
theorem Writes.overwrote {db : String} {doc : Fields} {w : Attempt} (h : s.Writes db doc w t)
    (accepted : w.accepted = true) (old : w.old = some c) :
    ∃ id, Entries.get? doc "_id" = some (.str id) ∧ s.current ⟨db, id⟩ = some c ∧
      Entries.get? doc "_rev" = c "_rev" := by
  cases h with
  | @put id rev named current fresh =>
    refine ⟨id, named, old, ?_⟩
    rw [current]
    exact revision?_of_current old
  | conflict named stale => cases accepted
  | created unnamed undated free fresh => cases old
  | improper unnamed given => cases accepted

theorem Writes.doc_eq {db : String} {doc : Fields} {w : Attempt} (h : s.Writes db doc w t) :
    w.doc = doc := by
  cases h <;> rfl

theorem Writes.place_eq {db id : String} {doc : Fields} {w : Attempt} (h : s.Writes db doc w t)
    (named : Entries.get? doc "_id" = some (.str id)) : w.place = some ⟨db, id⟩ := by
  cases h with
  | put named' current fresh =>
    rw [named] at named'
    cases named'
    rfl
  | conflict named' stale =>
    rw [named] at named'
    cases named'
    rfl
  | created unnamed undated free fresh =>
    rw [named] at unnamed
    cases unnamed
  | improper unnamed given => exact absurd named (unnamed id)

theorem WritesAll.write {db : String} {docs : List Value} {ws : List Attempt}
    (h : WritesAll db s docs ws t) {w : Attempt} (mem : w ∈ ws) :
    ∃ doc s' t', .object doc ∈ docs ∧ s.Evolves s' ∧ s'.Writes db doc w t' := by
  induction h with
  | nil s => cases mem
  | @cons s t u doc docs v ws first rest ih =>
    rcases List.mem_cons.1 mem with rfl | mem
    · exact ⟨doc, s, t, List.mem_cons_self, .refl, first⟩
    · obtain ⟨doc', s', t', member, later, write⟩ := ih mem
      exact ⟨doc', s', t', List.mem_cons_of_mem _ member, first.evolves.trans later, write⟩

theorem WritesAll.evolves {db : String} {docs : List Value} {ws : List Attempt}
    (h : WritesAll db s docs ws t) : s.Evolves t := by
  induction h with
  | nil s => exact .refl
  | cons first rest ih => exact first.evolves.trans ih

theorem Serves.evolves {call : Call} {a : Answer} {ws : List Attempt}
    (h : s.Serves call a ws t) : s.Evolves t := by
  cases h with
  | wrote write told => exact write.evolves
  | wroteAll writes sound body told => exact writes.evolves
  | _ => exact .refl

theorem Evolves.issued (h : s.Evolves t) {rev : String} (mem : rev ∈ s.issued) :
    rev ∈ t.issued := by
  induction h with
  | refl => exact mem
  | put _ p doc fresh ih => exact List.mem_cons_of_mem _ ih

theorem Evolves.sound (h : s.Evolves t) (sound : s.Sound) : t.Sound := by
  induction h with
  | refl => exact sound
  | @put t _ p doc rev fresh ih =>
    constructor
    · intro q c here
      simp only [Documents.put] at here
      split at here
      · rename_i same
        cases here
        rw [same]
        rfl
      · exact ih.named q c here
    · intro q c here
      simp only [Documents.put] at here
      split at here
      · cases here
        exact ⟨rev, List.mem_cons_self, rfl⟩
      · obtain ⟨old, mem, dated⟩ := ih.dated q c here
        exact ⟨old, List.mem_cons_of_mem _ mem, dated⟩

/-- A document that is met under a revision of an earlier time was there, as it is, at that
time. -/
theorem Evolves.untouched (h : s.Evolves t) {rev : String} (issued : rev ∈ s.issued)
    (now : t.current p = some c) (dated : c "_rev" = some (.str rev)) : s.current p = some c := by
  induction h with
  | refl => exact now
  | @put t earlier q doc new fresh ih =>
    simp only [Documents.put] at now
    split at now
    -- A write here since then would have given the document a newer revision.
    · cases now
      have same : new = rev := by simpa [kept] using dated
      rw [same] at fresh
      exact absurd (earlier.issued issued) fresh
    · exact ih now

theorem Evolves.present (h : s.Evolves t) (here : s.current p ≠ none) : t.current p ≠ none := by
  induction h with
  | refl => exact here
  | put _ q doc fresh ih =>
    simp only [Documents.put]
    split
    · simp
    · exact ih

theorem Evolves.unchanged (h : s.Evolves t) (sound : s.Sound) {old : Content}
    (seen : s.current p = some old) (now : t.current p = some c) (same : c "_rev" = old "_rev") :
    old = c := by
  obtain ⟨rev, mem, dated⟩ := sound.dated p old seen
  have back := h.untouched mem now (same.trans dated)
  rw [seen] at back
  exact Option.some.inj back

/-- After a write the revision before it never comes back. -/
theorem Evolves.moved (sound : s.Sound) {doc : Fields} {rev : String} (fresh : rev ∉ s.issued)
    (h : (s.put p doc rev).Evolves t) : t.revision? p ≠ s.revision? p := by
  have written : (s.put p doc rev).current p = some (kept doc p.id rev) := by simp [Documents.put]
  have sound' : (s.put p doc rev).Sound := Evolves.sound (.put .refl p doc fresh) sound
  obtain ⟨c, now⟩ := Option.ne_none_iff_exists'.1 (h.present (by rw [written]; simp))
  obtain ⟨new, -, dated⟩ := (h.sound sound').dated p c now
  rw [revision?_of_current now, dated]
  intro same
  cases before : s.current p with
  | none => simp [revision?, before] at same
  | some old =>
    obtain ⟨rev', mem, dated'⟩ := sound.dated p old before
    rw [revision?_of_current before, dated'] at same
    cases same
    have back := h.untouched (List.mem_cons_of_mem _ mem) now dated
    rw [written] at back
    cases back
    have again : rev = new := by simpa [kept] using dated
    exact fresh (again ▸ mem)

end Documents

end ModelStore
