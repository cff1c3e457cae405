import ModelStore.Proofs.Store.Operation
import ModelStore.Proofs.Store.Shop
import ModelStore.Proofs.Store.Succession
import Mathlib.Data.List.Pairwise
import Mathlib.Logic.Relation

/-! Any number of calls that write to one store at the same time. The store serves one request
after the other, of whichever call it likes, and new calls begin at any time. What is
logged is every document that reached the store and what was there before it. Documents whose
path has dot segments are left out: a look-up of one goes elsewhere. -/

namespace ModelStore

structure Progress where
  site : Site
  handle : Handle
  op : Operation
  program : Program Unit

def Progress.Ended (c : Progress) (r : Except Fault Unit) : Prop :=
  ∃ warnings, c.program.settle (.ok c.site) = (warnings, .finished r)

/-- Two replacements of one document under one revision. -/
def Progress.Rivals (c d : Progress) : Prop :=
  ∃ id id' data data' doc doc', c.op = .replaceById id data ∧ d.op = .replaceById id' data' ∧
    c.handle.database = d.handle.database ∧
    Write.replacement c.handle id data = .ok doc ∧
    Write.replacement d.handle id' data' = .ok doc' ∧
    Entries.get? doc "_id" = Entries.get? doc' "_id" ∧
    Entries.get? doc "_rev" = Entries.get? doc' "_rev"

/-- A store and the calls that use it. The log has each document that reached the store, with
the call that sent it. -/
structure World where
  store : Documents
  calls : List Progress
  log : List (Nat × Attempt)

namespace World

def idle (s : Documents) : World := ⟨s, [], []⟩

/-- What happens in a world: a call begins, or the store serves the request that a call has
come to, and the call goes on with the answer. -/
inductive Step (admits : List String → Handle → Operation → Prop) : World → World → Prop where
  | begin {w : World} {site : Site} {h : Handle} {op : Operation}
      (admitted : admits w.store.issued h op) :
      Step admits w { w with calls := w.calls ++ [⟨site, h, op, op.program h⟩] }
  | serve {w : World} {i : Nat} {c : Progress} {warnings : List Warning} {q : Request}
      {go : Reply → Program Unit} {reply : Reply} {path : String} {a : Answer}
      {ws : List Attempt} {t : Documents} (here : w.calls[i]? = some c)
      (sends : c.program.settle (.ok c.site) = (warnings, .sending q go))
      (undotted : q.call.Undotted) (served : w.store.Serves q.call a ws t)
      (arrives : q.exchange reply = .answered path a) :
      Step admits w ⟨t, w.calls.set i { c with program := go reply },
        w.log ++ ws.map fun v => (i, v)⟩

def attempts (w : World) (i : Nat) : List Attempt := (w.log.filter (·.1 = i)).map Prod.snd

@[simp] theorem mem_attempts {w : World} {i : Nat} {v : Attempt} :
    v ∈ w.attempts i ↔ (i, v) ∈ w.log := by
  simp [attempts]

/-- What the data of a call must keep to, and what an update must address. -/
def Orderly (issued : List String) (h : Handle) (op : Operation) : Prop :=
  op.Begins issued ∧ op.Addresses h

/-- What holds in a world at any time. Every call is safe with what it has written so far, and
what was written is spent. -/
structure Consistent (w : World) : Prop where
  sound : w.store.Sound
  safe : ∀ i c, w.calls[i]? = some c → ∃ start s, start.Evolves s ∧ s.Evolves w.store ∧
    Program.Safe start (c.op.Permits c.handle) (fun _ ws r => c.op.Ends ws r) c.program s
      (w.attempts i)
  permitted : ∀ i c, w.calls[i]? = some c → ∀ v, (i, v) ∈ w.log → c.op.Permits c.handle v
  logged : ∀ e ∈ w.log, e.1 < w.calls.length
  carried : ∀ e ∈ w.log, e.2.accepted = true → ∀ old, e.2.old = some old →
    Entries.get? e.2.doc "_rev" = old "_rev"
  spent : ∀ e ∈ w.log, w.store.Spent e.2
  apart : w.log.Pairwise fun e f => e.2.Apart f.2

theorem consistent_idle {s : Documents} (sound : s.Sound) : (idle s).Consistent := by
  refine ⟨sound, ?_, ?_, ?_, ?_, ?_, .nil⟩
  · intro i c here
    simp [idle] at here
  · intro i c here
    simp [idle] at here
  · simp [idle]
  · simp [idle]
  · simp [idle]

theorem Consistent.begin {w : World} (h : w.Consistent) {site : Site} {handle : Handle}
    {op : Operation} (orderly : Orderly w.store.issued handle op) :
    Consistent { w with calls := w.calls ++ [⟨site, handle, op, op.program handle⟩] } := by
  have cases_ : ∀ i c, (w.calls ++ [⟨site, handle, op, op.program handle⟩])[i]? = some c →
      w.calls[i]? = some c ∨
        i = w.calls.length ∧ c = ⟨site, handle, op, op.program handle⟩ := by
    intro i c here
    rw [List.getElem?_append] at here
    split at here
    · exact .inl here
    · have last : i = w.calls.length := by
        have bound := (List.getElem?_eq_some_iff.1 here).1
        simp at bound
        omega
      subst last
      simp at here
      exact .inr ⟨rfl, here.symm⟩
  have unlogged : ∀ v, (w.calls.length, v) ∉ w.log := fun v mem =>
    absurd (h.logged _ mem) (Nat.lt_irrefl _)
  refine ⟨h.sound, ?_, ?_, ?_, h.carried, h.spent, h.apart⟩
  · intro i c here
    rcases cases_ i c here with old | ⟨rfl, rfl⟩
    · exact h.safe i c old
    · have none_ : attempts { w with calls := w.calls ++ [⟨site, handle, op, op.program handle⟩] }
          w.calls.length = [] := by
        refine List.eq_nil_iff_forall_not_mem.2 fun v mem => ?_
        exact unlogged v (mem_attempts.1 mem)
      refine ⟨w.store, w.store, .refl, .refl, ?_⟩
      rw [none_]
      exact op.safe orderly.1 orderly.2 h.sound
  · intro i c here v mem
    rcases cases_ i c here with old | ⟨rfl, rfl⟩
    · exact h.permitted i c old v mem
    · exact absurd mem (unlogged v)
  · intro e mem
    have bound := h.logged e mem
    simp
    omega

theorem attempts_append (s : Documents) (calls : List Progress) (log : List (Nat × Attempt))
    (i j : Nat) (ws : List Attempt) :
    attempts ⟨s, calls, log ++ ws.map fun v => (i, v)⟩ j =
      attempts ⟨s, calls, log⟩ j ++ if i = j then ws else [] := by
  by_cases same : i = j
  · simp [attempts, List.filter_map, Function.comp_def, same]
  · simp [attempts, List.filter_map, Function.comp_def, same]

theorem Consistent.serve {w : World} (h : w.Consistent) {i : Nat} {c : Progress}
    {warnings : List Warning} {q : Request} {go : Reply → Program Unit} {reply : Reply}
    {path : String} {a : Answer} {ws : List Attempt} {t : Documents} (here : w.calls[i]? = some c)
    (sends : c.program.settle (.ok c.site) = (warnings, .sending q go))
    (served : w.store.Serves q.call a ws t) (arrives : q.exchange reply = .answered path a) :
    Consistent ⟨t, w.calls.set i { c with program := go reply },
      w.log ++ ws.map fun v => (i, v)⟩ := by
  -- The call that is served goes on safely; for the others the documents have changed.
  obtain ⟨start, s, since, later, safe⟩ := h.safe i c here
  obtain ⟨permitted, next⟩ := safe.served since sends later served arrives
  have evolves := served.evolves
  have cases_ : ∀ j d, (w.calls.set i { c with program := go reply })[j]? = some d →
      (i = j ∧ d = { c with program := go reply }) ∨ (i ≠ j ∧ w.calls[j]? = some d) := by
    intro j d there
    rw [List.getElem?_set] at there
    split at there
    · rename_i same
      split at there
      · exact .inl ⟨same, (Option.some.inj there).symm⟩
      · cases there
    · rename_i other
      exact .inr ⟨other, there⟩
  have entries : ∀ e ∈ w.log ++ ws.map (fun v => (i, v)), e ∈ w.log ∨ ∃ v ∈ ws, e = (i, v) := by
    intro e mem
    rcases List.mem_append.1 mem with old | new
    · exact .inl old
    · obtain ⟨v, mem, same⟩ := List.mem_map.1 new
      exact .inr ⟨v, mem, same.symm⟩
  refine ⟨evolves.sound h.sound, ?_, ?_, ?_, ?_, ?_, ?_⟩
  · intro j d there
    rw [attempts_append]
    rcases cases_ j d there with ⟨rfl, rfl⟩ | ⟨other, old⟩
    · rw [if_pos rfl]
      exact ⟨start, t, (since.trans later).trans evolves, .refl, next⟩
    · obtain ⟨start', s', since', later', safe'⟩ := h.safe j d old
      rw [if_neg other, List.append_nil]
      exact ⟨start', s', since', later'.trans evolves, safe'⟩
  · intro j d there v mem
    rcases cases_ j d there with ⟨rfl, rfl⟩ | ⟨other, old⟩
    · rcases entries _ mem with mem | ⟨v', mem, same⟩
      · exact h.permitted i c here v mem
      · cases same
        exact permitted v mem
    · rcases entries _ mem with mem | ⟨v', mem, same⟩
      · exact h.permitted j d old v mem
      · cases same
        exact absurd rfl other
  · intro e mem
    rw [List.length_set]
    rcases entries e mem with mem | ⟨v, sent, rfl⟩
    · exact h.logged e mem
    · exact (List.getElem?_eq_some_iff.1 here).1
  · intro e mem accepted old before
    rcases entries e mem with mem | ⟨v, sent, rfl⟩
    · exact h.carried e mem accepted old before
    · obtain ⟨db, doc, s', t', -, write⟩ := served.write sent
      obtain ⟨id, -, -, carried⟩ := write.overwrote accepted before
      rw [write.doc_eq]
      exact carried
  · intro e mem
    rcases entries e mem with mem | ⟨v, sent, rfl⟩
    · exact (h.spent e mem).later evolves
    · exact served.spent h.sound v sent
  · refine List.pairwise_append.2 ⟨h.apart, ?_, ?_⟩
    · exact List.pairwise_map.2 (served.apart h.sound)
    · intro e mem f mem'
      obtain ⟨v, sent, rfl⟩ := List.mem_map.1 mem'
      obtain ⟨db, doc, s', t', later', write⟩ := served.write sent
      exact (h.spent e mem).apart later' write

theorem Consistent.step {w w' : World} (h : w.Consistent) (step : Step Orderly w w') :
    w'.Consistent := by
  cases step with
  | begin admitted => exact h.begin admitted
  | serve here sends _ served arrives => exact h.serve here sends served arrives

/-- Every world that comes of a store without calls is consistent. -/
theorem consistent_of_run {s : Documents} (sound : s.Sound) {w : World}
    (run : Relation.ReflTransGen (Step Orderly) (idle s) w) : w.Consistent := by
  induction run with
  | refl => exact consistent_idle sound
  | tail _ step ih => exact ih.step step

theorem Consistent.settles {w : World} (h : w.Consistent) {i : Nat} {c : Progress}
    (here : w.calls[i]? = some c) {id data : Value} (op : c.op = .replaceById id data)
    {r : Except Fault Unit} (ended : c.Ended r) : Write.Settles (w.attempts i) r := by
  obtain ⟨start, s, -, -, safe⟩ := h.safe i c here
  obtain ⟨warnings, ends⟩ := ended
  exact safe.finished ends id data op

/-- The writes of two rivals are not both taken. -/
theorem Consistent.rivals {w : World} (h : w.Consistent) {i j : Nat} (other : i ≠ j)
    {c d : Progress} (here : w.calls[i]? = some c) (there : w.calls[j]? = some d)
    (rivals : c.Rivals d) {v v' : Attempt} (sent : (i, v) ∈ w.log) (sent' : (j, v') ∈ w.log)
    (taken : v.accepted = true) (taken' : v'.accepted = true) : False := by
  obtain ⟨id, id', data, data', doc, doc', op, op', database, whole, whole', named, dated⟩ := rivals
  obtain ⟨text, made, first, place⟩ := (h.permitted i c here v sent).replaces id data op
  obtain ⟨text', made', second, place'⟩ := (h.permitted j d there v' sent').replaces id' data' op'
  rw [whole] at made
  rw [whole'] at made'
  cases made
  cases made'
  have same : text = text' := by
    rw [first, second] at named
    simpa using named
  have apart : v.Apart v' := by
    have symmetric : Std.Symm fun e f : Nat × Attempt => e.2.Apart f.2 := ⟨fun e f => .symm⟩
    exact h.apart.forall sent sent' fun eq => other (congrArg Prod.fst eq)
  refine apart taken taken' ⟨c.handle.database, text⟩ place ?_ dated
  rw [place', database, same]

def shop : Documents where
  current p :=
    if p = ⟨"shop", "5"⟩ then
      some (Entries.get? [("_id", .str "5"), ("_rev", .str "1-a"), ("age", .int 1)])
    else none
  issued := ["1-a"]

theorem shop_sound : shop.Sound := by
  constructor
  · intro p c here
    simp only [shop] at here
    split at here
    · rename_i same
      cases here
      rw [same]
      rfl
    · cases here
  · intro p c here
    simp only [shop] at here
    split at here
    · cases here
      exact ⟨"1-a", by simp [shop], rfl⟩
    · cases here

open Shop (unmarked)

def rename (name : String) : Operation :=
  .replaceById (.str "5") (.object [("_rev", .str "1-a"), ("name", .str name)])

def renamed (name : String) : Fields :=
  [("_rev", .str "1-a"), ("name", .str name), ("_id", .str "5")]

theorem rename_begins (name : String) : (rename name).Begins ["1-a"] := by
  rintro fields ⟨⟩
  refine ⟨by simp [Entries.keys], ?_, nofun⟩
  intro v here
  cases here
  exact .inr ⟨"1-a", by simp, rfl⟩

def storedRenamed : Fields :=
  [("_rev", .str "2-b"), ("name", .str "x"), ("_id", .str "5")]

theorem kept_renamed :
    Documents.kept (renamed "x") "5" "2-b" = Entries.get? storedRenamed := by
  funext key
  by_cases own : key = "_id"
  · subst own
    rfl
  by_cases dated : key = "_rev"
  · subst dated
    rfl
  simp [Documents.kept, renamed, storedRenamed, Entries.get?_cons, own, dated, Ne.symm dated]

/-- No update is lost, however many calls write at the same time and in whatever order their
requests are served. What is taken over an existing document carried its revision. What
an update wrote over a document is its patch over exactly the content that was there. Of
the replacements of one document under one revision at most one is taken; the others fail,
with a fault of the kind of stale updates if they came as far as the store. -/
theorem no_lost_update {s : Documents} (sound : s.Sound) {w : World}
    (run : Relation.ReflTransGen (Step Orderly) (idle s) w) :
    (∀ e ∈ w.log, e.2.accepted = true → ∀ old, e.2.old = some old →
      Entries.get? e.2.doc "_rev" = old "_rev") ∧
    (∀ i c v, w.calls[i]? = some c → (i, v) ∈ w.log → v.accepted = true →
      ∀ old, v.old = some old → c.op.Overlays c.handle old v.doc) ∧
    ∀ i j c d, i ≠ j → w.calls[i]? = some c → w.calls[j]? = some d → c.Rivals d →
      (c.Ended (.ok ()) ∨ ∃ v, (i, v) ∈ w.log ∧ v.accepted = true) →
      ∀ r, d.Ended r → ∃ f, r = .error f ∧
        ∀ v, (j, v) ∈ w.log → ∃ e, f = .http e ∧ e.kind = .stale := by
  have consistent := consistent_of_run sound run
  refine ⟨consistent.carried, ?_, ?_⟩
  · intro i c v here sent taken old before
    exact (consistent.permitted i c here v sent).overlays taken old before
  · intro i j c d other here there rivals won r ended
    obtain ⟨id, id', data, data', -, -, op, op', -⟩ := id rivals
    obtain ⟨v, sent, taken⟩ : ∃ v, (i, v) ∈ w.log ∧ v.accepted = true := by
      rcases won with succeeded | written
      · obtain ⟨v, mem, taken⟩ := (consistent.settles here op succeeded).1 () rfl
        exact ⟨v, mem_attempts.1 mem, taken⟩
      · exact written
    have refused : ∀ v', (j, v') ∈ w.log → v'.accepted = false := by
      intro v' sent'
      cases taken' : v'.accepted with
      | false => rfl
      | true => exact (consistent.rivals other here there rivals sent sent' taken taken').elim
    obtain ⟨ok, stale⟩ := consistent.settles there op' ended
    cases r with
    | ok a =>
      obtain ⟨v', mem, taken'⟩ := ok a rfl
      rw [refused v' (mem_attempts.1 mem)] at taken'
      cases taken'
    | error f =>
      refine ⟨f, rfl, fun v' sent' => ?_⟩
      obtain ⟨e, same, kind⟩ := stale v' (mem_attempts.2 sent') (refused v' sent')
      cases same
      exact ⟨e, rfl, kind⟩

/-- Two calls rename the customer by the same revision; the second to be served is told that its
update is stale. -/
theorem no_lost_update_shop :
    ∃ (w : World) (c d : Progress) (e : HttpFault),
      Relation.ReflTransGen (Step Orderly) (idle shop) w ∧ w.calls[0]? = some c ∧
      w.calls[1]? = some d ∧ c.Ended (.ok ()) ∧ d.Ended (.error (.http e)) ∧ e.kind = .stale := by
  obtain ⟨q, go, q', go', r, go₁, f, path, path', path₁, sends, sends', ends, sends₁, ends₁, call,
      call', call₁, arrives, arrives', arrives₁⟩ :
      ∃ q go q' go' r go₁ f path path' path₁,
        ((rename "x").program unmarked).settle (.ok Shop.site) = ([], .sending q go) ∧
        (go (.answered (.taking "5" "2-b"))).settle (.ok Shop.site) = ([], .sending q' go') ∧
        (go' (.answered (.showing storedRenamed))).settle (.ok Shop.site) =
          ([], .finished (.ok ())) ∧
        ((rename "y").program unmarked).settle (.ok Shop.site) = ([], .sending r go₁) ∧
        (go₁ (.answered .refusing)).settle (.ok Shop.site) = ([], .finished (.error (.http f))) ∧
        q.call = .insert "shop" (renamed "x") ∧ q'.call = .get "shop" "5" ∧
        r.call = .insert "shop" (renamed "y") ∧
        q.exchange (.answered (.taking "5" "2-b")) = .answered path (.taking "5" "2-b") ∧
        q'.exchange (.answered (.showing storedRenamed)) =
          .answered path' (.showing storedRenamed) ∧
        r.exchange (.answered .refusing) = .answered path₁ .refusing :=
    ⟨_, _, _, _, _, _, _, _, _, _, rfl, rfl, rfl, rfl, rfl, rfl, rfl, rfl, rfl, rfl, rfl⟩
  let place : Place := ⟨"shop", "5"⟩
  let later := shop.put place (renamed "x") "2-b"
  let entry : Nat × Attempt := (0, ⟨some place, renamed "x", shop.current place, true⟩)
  let entry₁ : Nat × Attempt := (1, ⟨some place, renamed "y", later.current place, false⟩)
  have wrote : shop.Serves q.call (.taking "5" "2-b") [entry.2] later := by
    rw [call]
    exact Documents.serves_taking rfl rfl (by simp [shop])
  have refused : later.Serves r.call .refusing [entry₁.2] later := by
    rw [call₁]
    refine Documents.serves_refusing rfl fun same => ?_
    exact absurd (show some (Value.str "1-a") = some (Value.str "2-b") from same) (by simp)
  have read : later.Serves q'.call (.showing storedRenamed) [] later := by
    rw [call']
    exact Documents.serves_showing ⟨_, rfl, ⟨by decide, rfl⟩, congrArg some kept_renamed⟩
  let first (p : Program Unit) : Progress := ⟨Shop.site, unmarked, rename "x", p⟩
  let second (p : Program Unit) : Progress := ⟨Shop.site, unmarked, rename "y", p⟩
  let winner := first (go' (.answered (.showing storedRenamed)))
  let loser := second (go₁ (.answered .refusing))
  let other := second ((rename "y").program unmarked)
  let w₀ : World := ⟨shop, [first ((rename "x").program unmarked)], []⟩
  let w₁ : World := ⟨shop, [first ((rename "x").program unmarked), other], []⟩
  let w₂ : World := ⟨later, [first (go (.answered (.taking "5" "2-b"))), other], [entry]⟩
  let w₃ : World := ⟨later, [first (go (.answered (.taking "5" "2-b"))), loser], [entry, entry₁]⟩
  let w₄ : World := ⟨later, [winner, loser], [entry, entry₁]⟩
  have begun : Step Orderly (idle shop) w₀ := .begin ⟨rename_begins "x", trivial⟩
  have joined : Step Orderly w₀ w₁ := .begin ⟨rename_begins "y", trivial⟩
  have sent : Step Orderly w₁ _ := .serve (i := 0) rfl sends (call ▸ trivial) wrote arrives
  have sent₁ : Step Orderly w₂ _ := .serve (i := 1) rfl sends₁ (call₁ ▸ trivial) refused arrives₁
  have undotted : q'.call.Undotted := by
    rw [call']
    exact (by decide : ¬Path.HasDots "shop" "5")
  have readBack : Step Orderly w₃ _ := .serve (i := 0) rfl sends' undotted read arrives'
  have run : Relation.ReflTransGen (Step Orderly) (idle shop) w₄ :=
    ((((Relation.ReflTransGen.single begun).tail joined).tail sent).tail sent₁).tail readBack
  have rivals : winner.Rivals loser :=
    ⟨_, _, _, _, renamed "x", renamed "y", rfl, rfl, rfl, rfl, rfl, rfl, rfl⟩
  obtain ⟨-, -, exclusive⟩ := no_lost_update shop_sound run
  obtain ⟨f', same, stale⟩ := exclusive 0 1 winner loser (by decide) rfl rfl rivals
    (.inl ⟨[], ends⟩) (.error (.http f)) ⟨[], ends₁⟩
  obtain ⟨e, told, kind⟩ := stale _ (List.mem_cons_of_mem entry List.mem_cons_self)
  cases same
  cases told
  exact ⟨_, winner, loser, _, run, rfl, rfl, ⟨[], ends⟩, ⟨[], ends₁⟩, kind⟩

/-- An update whose data names the customer by `_id` and `_rev`, and not by the id of the
model. -/
def overwrite : Operation :=
  .updateOrCreate (.object [("_id", .str "5"), ("_rev", .str "1-a"), ("name", .str "x")])

/-- Such data is written over the customer as it is, and the age is lost. -/
theorem updateOrCreate_loses :
    ∃ (w : World) (c : Progress) (v : Attempt) (old : Content), shop.Sound ∧
      Relation.ReflTransGen (Step fun issued _ op => op.Begins issued) (idle shop) w ∧
      w.calls[0]? = some c ∧ (0, v) ∈ w.log ∧ v.accepted = true ∧ v.old = some old ∧
      ¬c.op.Overlays c.handle old v.doc := by
  let doc : Fields := [("_id", .str "5"), ("_rev", .str "1-a"), ("name", .str "x")]
  obtain ⟨q, go, path, sends, call, arrives⟩ : ∃ q go path,
      (overwrite.program unmarked).settle (.ok Shop.site) = ([], .sending q go) ∧
      q.call = .insert "shop" doc ∧
      q.exchange (.answered (.taking "5" "2-b")) = .answered path (.taking "5" "2-b") :=
    ⟨_, _, _, rfl, rfl, rfl⟩
  let place : Place := ⟨"shop", "5"⟩
  let entry : Nat × Attempt := (0, ⟨some place, doc, shop.current place, true⟩)
  have wrote : shop.Serves q.call (.taking "5" "2-b") [entry.2] (shop.put place doc "2-b") := by
    rw [call]
    exact Documents.serves_taking rfl rfl (by simp [shop])
  have begins : overwrite.Begins shop.issued := by
    rintro fields ⟨⟩
    refine ⟨by simp [Entries.keys], ?_, nofun⟩
    intro v here
    cases here
    exact .inr ⟨"1-a", by simp [shop], rfl⟩
  let w₀ : World := ⟨shop, [⟨Shop.site, unmarked, overwrite, overwrite.program unmarked⟩], []⟩
  have begun : Step (fun issued _ op => op.Begins issued) (idle shop) w₀ := .begin begins
  have sent : Step (fun issued _ op => op.Begins issued) w₀ _ :=
    .serve (i := 0) rfl sends (call ▸ trivial) wrote arrives
  refine ⟨_, ⟨Shop.site, unmarked, overwrite, go (.answered (.taking "5" "2-b"))⟩, entry.2, _,
    shop_sound, (Relation.ReflTransGen.single begun).tail sent, rfl, List.mem_cons_self, rfl, rfl,
    ?_⟩
  rintro ⟨patch, ⟨⟩, merges⟩
  have age := merges "age"
  exact absurd (show (none : Option Value) = some (.int 1) from age) (by simp)

end World

end ModelStore
