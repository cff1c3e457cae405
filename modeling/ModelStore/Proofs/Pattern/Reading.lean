import ModelStore.Proofs.Pattern.Spelling

/-! What the operand of a pattern operator stands for: a source under flags. It is read off the
operand by itself, without the text that the store is given, and that text is then shown to be the
source behind these flags. A store that takes flags in front of a source, in whatever order they
stand there, so finds what the operand stands for. -/

namespace ModelStore

namespace Pattern

/-- The letters up to the end of a text, where a line break may follow them. -/
def lettersToEnd? : List Char → Option (List Char)
  | [] => some []
  | c :: rest =>
    if 'a' ≤ c ∧ c ≤ 'z' then (lettersToEnd? rest).map (c :: ·)
    else if c = '\n' ∧ rest = [] then some []
    else none

def longest? : List Char → Option (List Char × List Char)
  | [] => none
  | c :: rest =>
    match longest? rest with
    | some (source, letters) => some (c :: source, letters)
    | none => if c = '/' then (lettersToEnd? rest).map ([], ·) else none

/-- The source and the letters of text of the form `/source/letters`. -/
def slashed? (s : String) : Option (String × List Char) :=
  match s.toList with
  | '/' :: rest => (longest? rest).map fun parts => (String.ofList parts.1, parts.2)
  | _ => none

/-- The pattern that an operand and its options stand for. Only with `slashed` is text looked at for
slashes. -/
def ofOperand? (slashed : Bool) (options : Option String) : Value → Option Pattern
  | .scalar (.pattern p) =>
    some ⟨p.source, .ofLetters (p.flags.letters ++ (options.getD "").toList)⟩
  | .str s =>
    let parts := (if slashed then slashed? s else none).getD (s, [])
    some ⟨parts.1, .ofLetters (parts.2 ++ (options.getD "").toList)⟩
  | _ => none

/-- The source as the class of all characters but its own. -/
def negated (p : Pattern) : Pattern := ⟨"[^" ++ p.source ++ "]", p.flags⟩

/-- Whether a pattern is found in a text. -/
abbrev Found := Pattern → String → Bool

/-- Whether a search takes flags in front of a source for those of the pattern, in whatever order
they stand there. -/
def Reads (search : String → String → Bool) (found : Found) : Prop :=
  ∀ letters source text, letters.Nodup → (∀ c ∈ letters, c ∈ flagLetters) →
    search (flagged letters source) text = found ⟨source, .ofLetters letters⟩ text

theorem lettersToEnd?_of_ends {letters cs : List Char} (ends : Ends letters cs) :
    lettersToEnd? cs = some letters := by
  induction letters generalizing cs with
  | nil => rcases ends.2 with rfl | rfl <;> rfl
  | cons c letters ih =>
    obtain ⟨lower, others⟩ := List.forall_mem_cons.1 ends.1
    rcases ends.2 with rfl | rfl
    · rw [lettersToEnd?, if_pos lower, ih ⟨others, .inl rfl⟩]
      rfl
    · rw [List.cons_append, lettersToEnd?, if_pos lower, ih ⟨others, .inr rfl⟩]
      rfl

theorem ends_of_lettersToEnd? {letters cs : List Char} (h : lettersToEnd? cs = some letters) :
    Ends letters cs := by
  induction cs generalizing letters with
  | nil =>
    cases h
    exact ⟨by simp, .inl rfl⟩
  | cons c rest ih =>
    rw [lettersToEnd?] at h
    split_ifs at h with lower last
    · obtain ⟨others, later, rfl⟩ := Option.map_eq_some_iff.1 h
      have ends := ih later
      exact ⟨List.forall_mem_cons.2 ⟨lower, ends.1⟩,
        ends.2.imp (congrArg (c :: ·)) (congrArg (c :: ·))⟩
    · cases h
      obtain ⟨rfl, rfl⟩ := last
      exact ⟨by simp, .inr rfl⟩

theorem longest?_of_not_mem {cs : List Char} (unslashed : '/' ∉ cs) : longest? cs = none := by
  induction cs with
  | nil => rfl
  | cons c rest ih =>
    rw [List.mem_cons, not_or] at unslashed
    rw [longest?, ih unslashed.2]
    exact if_neg (Ne.symm unslashed.1)

theorem longest?_eq_some {cs source letters : List Char} :
    longest? cs = some (source, letters) ↔
      ∃ tail, Ends letters tail ∧ cs = source ++ '/' :: tail := by
  constructor
  · intro h
    induction cs generalizing source with
    | nil => cases h
    | cons c rest ih =>
      rw [longest?] at h
      split at h
      · rename_i found
        cases h
        obtain ⟨tail, ends, rfl⟩ := ih found
        exact ⟨tail, ends, rfl⟩
      · split_ifs at h with slash
        obtain ⟨_, found, same⟩ := Option.map_eq_some_iff.1 h
        cases same
        exact ⟨rest, ends_of_lettersToEnd? found, by rw [slash]; rfl⟩
  · rintro ⟨tail, ends, rfl⟩
    induction source with
    | nil =>
      rw [List.nil_append, longest?, longest?_of_not_mem ends.unslashed]
      simp [lettersToEnd?_of_ends ends]
    | cons c source ih => rw [List.cons_append, longest?, ih]

/-- Text of the form `/source/letters` is cut at its last slash. -/
theorem slashed?_eq_some {s source : String} {letters : List Char} :
    slashed? s = some (source, letters) ↔
      ∃ tail, Ends letters tail ∧ s.toList = '/' :: (source.toList ++ '/' :: tail) := by
  rw [slashed?]
  split
  · rename_i rest chars
    rw [chars, Option.map_eq_some_iff]
    constructor
    · rintro ⟨⟨_, _⟩, found, same⟩
      cases same
      simpa [longest?_eq_some] using found
    · rintro ⟨tail, ends, same⟩
      cases same
      exact ⟨(source.toList, letters), longest?_eq_some.2 ⟨tail, ends, rfl⟩, by simp⟩
  · rename_i other
    constructor
    · exact nofun
    · rintro ⟨tail, -, chars⟩
      exact absurd chars (other _)

theorem ofSlashed?_toList (s : String) :
    ofSlashed? s.toList = (slashed? s).map fun parts => ⟨parts.1.toList, parts.2⟩ := by
  ext ⟨source, letters⟩
  rw [ofSlashed?_eq_some, Option.map_eq_some_iff]
  constructor
  · intro form
    refine ⟨(String.ofList source, letters), slashed?_eq_some.2 ?_, by simp⟩
    simpa using form
  · rintro ⟨⟨_, _⟩, found, same⟩
    cases same
    exact slashed?_eq_some.1 found

theorem ofLetters_keptFlags (letters : List Char) :
    Flags.ofLetters (keptFlags letters) = Flags.ofLetters letters := by
  simp [Flags.ofLetters, mem_keptFlags, flagLetters]

theorem keptFlags_of_nodup {letters : List Char} (distinct : letters.Nodup)
    (flags : ∀ c ∈ letters, c ∈ flagLetters) : keptFlags letters = letters :=
  foldl_keep_eq_append distinct flags

theorem flags_letters (f : Flags) : ∀ c ∈ f.letters, c ∈ flagLetters := by
  intro c mem
  rw [← Flags.ofLetters_letters f, mem_letters_ofLetters] at mem
  exact mem.2

theorem split_of_operand {slashed : Bool} {options : Option String} {v : Value} {p : Pattern}
    (stands : ofOperand? slashed options v = some p) :
    ∃ first, split slashed v = ⟨remarks first, .ok ⟨p.source.toList, keptFlags first⟩⟩ ∧
      p.flags = .ofLetters (first ++ (options.getD "").toList) := by
  unfold ofOperand? at stands
  split at stands
  · rename_i q
    cases stands
    have flags := flags_letters q.flags
    have none_ : remarks q.flags.letters = [] := by simpa [remarks] using flags
    refine ⟨q.flags.letters, ?_, rfl⟩
    rw [none_, keptFlags_of_nodup (nodup_letters _) flags]
    rfl
  · rename_i s
    cases stands
    have form : (if slashed then ofSlashed? s.toList else none) =
        (if slashed then slashed? s else none).map fun parts => ⟨parts.1.toList, parts.2⟩ := by
      rw [ofSlashed?_toList]
      cases slashed <;> rfl
    cases found : (if slashed then slashed? s else none) with
    | none =>
      refine ⟨[], ?_, rfl⟩
      rw [split, form, found]
      rfl
    | some parts =>
      refine ⟨parts.2, ?_, rfl⟩
      rw [split, form, found]
      simp only [Option.map_some, Option.getD_some, cleanFlags_eq, Noted.bind_of_ok]
      exact congrArg (Noted.mk · _) (List.append_nil _)
  · cases stands

/-- The text that an operand becomes is searched for as the pattern that the operand stands for. -/
theorem search_inline {slashed : Bool} {options : Option String} {v : Value} {p : Pattern}
    (stands : ofOperand? slashed options v = some p) (negative : Bool) :
    ∃ text, (inline negative slashed options v).outcome = .ok text ∧
      ∀ search found, Reads search found →
        search text = found (if negative then p.negated else p) := by
  obtain ⟨first, parts, flags⟩ := split_of_operand stands
  refine ⟨_, congrArg Noted.outcome (inline_of_split negative parts options), ?_⟩
  intro search found reads
  funext text
  rw [reads _ _ _ (nodup_keptFlags _) fun c mem => (mem_keptFlags.1 mem).2, ofLetters_keptFlags,
    ← flags]
  cases negative <;> rfl

end Pattern

end ModelStore
