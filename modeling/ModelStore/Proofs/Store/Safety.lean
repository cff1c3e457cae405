import ModelStore.Proofs.Store.Documents
import ModelStore.Store.Program

/-! Programs among others that write to the same store. While a program waits for an answer the
documents may change in any way in which a store changes; all it can hold on to is what was
shown to it at some time since it began. A program is safe if every document it sends is
permitted, whatever it is answered, and if what is wanted at its end is true there. -/

namespace ModelStore

/-- A document as it stood at some time since a start. -/
def Documents.Met (start now : Documents) (db : String) (d : Value) : Prop :=
  ∃ s id, start.Evolves s ∧ s.Evolves now ∧ s.Shows ⟨db, id⟩ d

namespace Program

/-- Safety of a program, told of the documents when it was last answered and of its writes up
to then. -/
def Safe {α : Type} (start : Documents) (permit : Attempt → Prop)
    (goal : Documents → List Attempt → Except Fault α → Prop) :
    Program α → Documents → List Attempt → Prop
  | .done r, s, ws => goal s ws r
  | .remark _ rest, s, ws => Safe start permit goal rest s ws
  | .ask c go, s, ws =>
    ∀ t, s.Evolves t →
      (∀ f : Fault, f.isNotFound = false → Safe start permit goal (go (.refused f)) t ws) ∧
      ∀ coded a new u, c.encode = .ok coded → t.Serves coded a new u →
        (∀ w ∈ new, permit w) ∧
          ∀ path, Safe start permit goal (go (.answered path a)) u (ws ++ new)
  -- Each page of a scan is a request of its own, so its documents may be of different times.
  | .scan c go, s, ws =>
    ∀ t, s.Evolves t → ∀ r : Except Fault (List Value),
      (∀ docs, r = .ok docs →
        ∃ more, docs = c.found ++ more ∧ ∀ d ∈ more, start.Met t c.database d) →
      Safe start permit goal (go r) t ws

variable {α β : Type} {start s t u : Documents} {ws new : List Attempt} {permit : Attempt → Prop}
  {goal : Documents → List Attempt → Except Fault α → Prop}
  {goal' : Documents → List Attempt → Except Fault β → Prop}

theorem safe_andThen {p : Program α} {f : Except Fault α → Program β} :
    Safe start permit goal' (p.andThen f) s ws ↔
      Safe start permit (fun t ws r => Safe start permit goal' (f r) t ws) p s ws := by
  induction p generalizing s ws with
  | done r => rfl
  | remark w rest ih => exact ih
  | ask c go ih => simp only [andThen, Safe, ih]
  | scan c go ih => simp only [andThen, Safe, ih]

theorem Safe.mono {wanted : Documents → List Attempt → Except Fault α → Prop} {p : Program α}
    (h : Safe start permit goal p s ws) (stronger : ∀ t ws r, goal t ws r → wanted t ws r) :
    Safe start permit wanted p s ws := by
  induction p generalizing s ws with
  | done r => exact stronger s ws r h
  | remark w rest ih => exact ih h
  | ask c go ih =>
    intro t later
    obtain ⟨refused, answered⟩ := h t later
    refine ⟨fun f other => ih _ (refused f other), fun coded a new u form served => ?_⟩
    obtain ⟨permitted, next⟩ := answered coded a new u form served
    exact ⟨permitted, fun path => ih _ (next path)⟩
  | scan c go ih => exact fun t later r found => ih _ (h t later r found)

theorem Safe.bind {p : Program α} {f : α → Program β} (h : Safe start permit goal p s ws)
    (next : ∀ t ws a, goal t ws (.ok a) → Safe start permit goal' (f a) t ws)
    (fault : ∀ t ws e, goal t ws (.error e) → goal' t ws (.error e)) :
    Safe start permit goal' (p >>= f) s ws := by
  refine safe_andThen.2 (h.mono fun t ws r known => ?_)
  cases r with
  | ok a => exact next t ws a known
  | error e => exact fault t ws e known

theorem safe_ofExcept_bind {r : Except Fault α} {f : α → Program β}
    (next : ∀ a, r = .ok a → Safe start permit goal' (f a) s ws)
    (fault : ∀ e, r = .error e → goal' s ws (.error e)) :
    Safe start permit goal' (ofExcept r >>= f) s ws := by
  cases r with
  | ok a => exact next a rfl
  | error e => exact fault e rfl

theorem safe_ofNoted {x : Noted α} :
    Safe start permit goal (ofNoted x) s ws ↔ goal s ws x.outcome := by
  obtain ⟨warnings, r⟩ := x
  induction warnings with
  | nil => rfl
  | cons w rest ih => exact ih

theorem safe_of_permitted (permitted : ∀ w, permit w) (wanted : ∀ t ws r, goal t ws r)
    (p : Program α) : Safe start permit goal p s ws := by
  induction p generalizing s ws with
  | done r => exact wanted s ws r
  | remark w rest ih => exact ih
  | ask c go ih =>
    intro t later
    exact ⟨fun f other => ih _, fun coded a new u form served =>
      ⟨fun w _ => permitted w, fun path => ih _⟩⟩
  | scan c go ih => exact fun t later r found => ih r

end Program

namespace Call

theorem shape_of_encodingFault {γ δ : Type} {x : Except Json.EncodingFault γ} {f : γ → δ}
    {e : Fault} (h : (x.mapError encodingFault).map f = .error e) : ∃ shape, e = .shape shape := by
  cases x with
  | ok a => cases h
  | error fault =>
    cases h
    cases fault <;> exact ⟨_, rfl⟩

theorem shape_of_encode {c : Call} {e : Fault} (h : c.encode = .error e) :
    ∃ shape, e = .shape shape := by
  cases c with
  | find db query => exact shape_of_encodingFault h
  | insert db doc => exact shape_of_encodingFault h
  | bulk db docs => exact shape_of_encodingFault h
  | createIndex db body => exact shape_of_encodingFault h
  | _ => cases h

end Call

namespace Site

theorem fault_of_request {site : Site} {c : Call} {f : Fault} (h : site.request c = .error f) :
    (∃ e, f = .url e) ∨ ∃ e, f = .shape e := by
  unfold request at h
  cases address : site.address c with
  | error e =>
    rw [address] at h
    cases h
    exact .inl ⟨e, rfl⟩
  | ok url =>
    rw [address] at h
    cases form : c.encode with
    | ok coded =>
      rw [form] at h
      cases h
    | error e =>
      rw [form] at h
      cases h
      exact .inr (Call.shape_of_encode form)

theorem request_error {site : Site} {c : Call} {f : Fault} (h : site.request c = .error f) :
    f.isNotFound = false := by
  rcases fault_of_request h with ⟨e, rfl⟩ | ⟨e, rfl⟩ <;> rfl

theorem request_ok {site : Site} {c : Call} {r : Request} (h : site.request c = .ok r) :
    c.encode = .ok r.call := by
  obtain ⟨url, -, h⟩ := Except.bind_eq_ok.1 h
  obtain ⟨coded, form, h⟩ := Except.bind_eq_ok.1 h
  cases h
  exact form

end Site

namespace Scan

variable {s : Scan}

theorem next_ended {r : Except Fault (List Value)} (h : s.next = .ended r) : r = .ok s.found := by
  unfold next at h
  split at h
  · cases h
    rfl
  · cases h

theorem next_ask {c : Call} (h : s.next = .ask c) : c = .find s.database s.body := by
  unfold next at h
  split at h
  · cases h
  · cases h
    rfl

end Scan

namespace Exchange

variable {c : Call} {path : String} {a : Answer}

theorem value_of_failed (h : a.isError = true) :
    (answered path a).value c = .error (a.failure c.method path) := by
  simp only [value, accepted, h, if_true]
  rfl

theorem value_of_body (h : a.isError = false) {v : Value} (body : a.body = .ok v) :
    (answered path a).value c = .ok v := by
  simp only [value, accepted, h, Bool.false_eq_true, if_false, bind, Except.bind, body]

theorem isNotFound_of_value (h : a.isError = false) {f : Fault}
    (fault : (answered path a).value c = .error f) : f.isNotFound = false := by
  cases body : a.body with
  | ok v =>
    rw [value_of_body h body] at fault
    cases fault
  | error unread =>
    simp only [value, accepted, h, Bool.false_eq_true, if_false, bind, Except.bind, body] at fault
    cases unread <;> cases fault <;> rfl

end Exchange

namespace Program

variable {α : Type} {start s t u : Documents} {ws new : List Attempt} {permit : Attempt → Prop}
  {goal : Documents → List Attempt → Except Fault α → Prop} {site : Site}

theorem safe_afterPage {c : Scan} {go : Except Fault (List Value) → Program α}
    (h : Safe start permit goal (.scan c go) s ws) (since : start.Evolves s) (later : s.Evolves t)
    {q : Call} {coded : Fields} {path : String} {a : Answer}
    (served : t.Serves (.find c.database coded) a new u) :
    new = [] ∧ Safe start permit goal (afterPage c q go (.answered path a)) u ws := by
  cases served with
  | unlisted failed =>
    refine ⟨rfl, ?_⟩
    have refused : c.receive q (.answered path a) = .inl (.error (a.failure q.method path)) := by
      rw [Scan.receive, Exchange.value_of_failed failed]
      rfl
    rw [afterPage, refused]
    exact h t later (.error _) fun docs ended => nomatch ended
  | @listed _ _ fields docs _ sound body page shown =>
    refine ⟨rfl, ?_⟩
    have read : (((Exchange.answered path a).value q).bind c.page) =
        .ok ⟨docs, Value.ofOption (Entries.get? fields "bookmark")⟩ := by
      rw [Exchange.value_of_body sound body]
      simp only [Except.bind, Scan.page, page]
    have met : ∀ d ∈ docs, start.Met t c.database d := by
      intro d mem
      obtain ⟨id, here⟩ := shown d mem
      exact ⟨t, id, since.trans later, .refl, here⟩
    rw [afterPage, Scan.receive, read]
    cases last : c.isLast ⟨docs, Value.ofOption (Entries.get? fields "bookmark")⟩ with
    | true =>
      simp only [last, if_true]
      refine h t later _ fun all ended => ?_
      cases ended
      exact ⟨docs, rfl, met⟩
    | false =>
      simp only [last, if_false, Bool.false_eq_true]
      intro t' later' r found
      refine h t' (later.trans later') r fun all ended => ?_
      obtain ⟨more, rfl, met'⟩ := found all ended
      refine ⟨docs ++ more, List.append_assoc _ _ _, fun d mem => ?_⟩
      rcases List.mem_append.1 mem with mem | mem
      · obtain ⟨v, id, first, second, here⟩ := met d mem
        exact ⟨v, id, first, second.trans later', here⟩
      · exact met' d mem

/-- What is kept by all that a program does without the store. -/
structure Carries (site : Site) (P : Program α → Prop) : Prop where
  remark : ∀ w rest, P (.remark w rest) → P rest
  refused : ∀ c go f, P (.ask c go) → site.request c = .error f → P (go (.refused f))
  ended : ∀ c go, P (.scan c go) → P (go (.ok c.found))
  unscanned : ∀ c go f, P (.scan c go) → P (go (.error f))

theorem settle_ask_at (site : Site) (c : Call) (go : Exchange → Program α) :
    (∃ f, site.request c = .error f ∧
      (ask c go).settle (.ok site) = (go (.refused f)).settle (.ok site)) ∨
    ∃ q, site.request c = .ok q ∧
      (ask c go).settle (.ok site) = ([], .sending q fun reply => go (q.exchange reply)) :=
  settle_ask (.ok site) c go

theorem settle_remark {w : Warning} {p : Program α} {warnings : List Warning}
    {state : Settled α} : (remark w p).settle (.ok site) = (warnings, state) ↔
      ∃ rest, p.settle (.ok site) = (rest, state) ∧ warnings = w :: rest := by
  rw [settle]
  generalize p.settle (.ok site) = settled
  obtain ⟨rest, state'⟩ := settled
  constructor
  · intro same
    cases same
    exact ⟨rest, rfl, rfl⟩
  · rintro ⟨_, same, rfl⟩
    cases same
    rfl

variable {P : Program α → Prop} {p : Program α} {warnings : List Warning}

theorem Carries.finished (carries : Carries site P) (h : P p) {r : Except Fault α}
    (ends : p.settle (.ok site) = (warnings, .finished r)) : P (.done r) := by
  induction p generalizing warnings with
  | done result =>
    cases ends
    exact h
  | remark w rest ih =>
    obtain ⟨_, ends, -⟩ := settle_remark.1 ends
    exact ih (carries.remark w rest h) ends
  | ask c go ih =>
    rcases settle_ask_at site c go with ⟨f, refused, settled⟩ | ⟨q, -, settled⟩
    · exact ih _ (carries.refused c go f h refused) (settled.symm.trans ends)
    · cases settled.symm.trans ends
  | scan c go ih =>
    rcases settle_scan (.ok site) c go with
      ⟨x, next, settled⟩ | ⟨_, f, -, -, settled⟩ | ⟨_, _, -, -, settled⟩
    · have found := carries.ended c go h
      rw [← Scan.next_ended next] at found
      exact ih _ found (settled.symm.trans ends)
    · exact ih _ (carries.unscanned c go f h) (settled.symm.trans ends)
    · cases settled.symm.trans ends

/-- The request that a program comes to is that of a call, or asks for a page of a scan. -/
theorem Carries.sending (carries : Carries site P) (h : P p) {q : Request}
    {go : Reply → Program α} (sends : p.settle (.ok site) = (warnings, .sending q go)) :
    (∃ c next, P (.ask c next) ∧ c.encode = .ok q.call ∧
      ∀ reply, go reply = next (q.exchange reply)) ∨
    ∃ c next asked query, P (.scan c next) ∧ Json.encodeFields c.body = .ok query ∧
      q.call = .find c.database query ∧
      ∀ reply, go reply = afterPage c asked next (q.exchange reply) := by
  induction p generalizing warnings with
  | done r => cases sends
  | remark w rest ih =>
    obtain ⟨_, sends, -⟩ := settle_remark.1 sends
    exact ih (carries.remark w rest h) sends
  | ask c next ih =>
    rcases settle_ask_at site c next with ⟨f, refused, settled⟩ | ⟨r, sent, settled⟩
    · exact ih _ (carries.refused c next f h refused) (settled.symm.trans sends)
    · cases settled.symm.trans sends
      exact .inl ⟨c, next, h, Site.request_ok sent, fun reply => rfl⟩
  | scan c next ih =>
    rcases settle_scan (.ok site) c next with
      ⟨x, turn, settled⟩ | ⟨_, f, -, -, settled⟩ | ⟨asked, r, turn, sent, settled⟩
    · have found := carries.ended c next h
      rw [← Scan.next_ended turn] at found
      exact ih _ found (settled.symm.trans sends)
    · exact ih _ (carries.unscanned c next f h) (settled.symm.trans sends)
    · cases settled.symm.trans sends
      have form := Site.request_ok sent
      rw [Scan.next_ask turn] at form
      obtain ⟨query, encoded, call⟩ := Except.map_eq_ok.1 form
      exact .inr ⟨c, next, asked, query, h, Except.mapError_eq_ok.1 encoded, call.symm,
        fun reply => rfl⟩

theorem carries_safe : Carries site fun p => Safe start permit goal p s ws where
  remark _ _ h := h
  refused _ _ f h error := (h s .refl).1 f (Site.request_error error)
  ended c go h := h s .refl (.ok c.found) fun docs same => ⟨[], by cases same; simp, by simp⟩
  unscanned _ _ f h := h s .refl (.error f) fun docs same => by cases same

theorem Safe.finished (h : Safe start permit goal p s ws) {r : Except Fault α}
    (ends : p.settle (.ok site) = (warnings, .finished r)) : goal s ws r :=
  carries_safe.finished h ends

/-- A safe program whose request is served sends only what is permitted, and stays safe. -/
theorem Safe.served (h : Safe start permit goal p s ws) (since : start.Evolves s) {q : Request}
    {go : Reply → Program α} (sends : p.settle (.ok site) = (warnings, .sending q go))
    (later : s.Evolves t) {a : Answer} (serves : t.Serves q.call a new u) {reply : Reply}
    {path : String} (arrives : q.exchange reply = .answered path a) :
    (∀ w ∈ new, permit w) ∧ Safe start permit goal (go reply) u (ws ++ new) := by
  rcases carries_safe.sending h sends with
    ⟨c, next, safe, form, goes⟩ | ⟨c, next, asked, query, safe, -, call, goes⟩
  · obtain ⟨permitted, safe⟩ := (safe t later).2 _ a new u form serves
    rw [goes, arrives]
    exact ⟨permitted, safe path⟩
  · rw [call] at serves
    have page : new = [] ∧
        Safe start permit goal (afterPage c asked next (.answered path a)) u ws :=
      safe_afterPage safe since later serves
    obtain ⟨rfl, on⟩ := page
    rw [goes, arrives, List.append_nil]
    exact ⟨by simp, on⟩

end Program

end ModelStore
