/-
# Addresses stay in the text

Evaluating an address moves a range through the text. Every token keeps the range in the text or
fails with an error, so the evaluation can break down in one way only: a pattern that is not closed
and ends in a backslash is read past the end of the address.
-/
import PointerMigration.Address
import PointerMigration.Proofs.Matches

namespace PointerMigration

/-! ## Motion -/

namespace Motion

theorem lineLength_le (t : Text) : lineLength t ≤ t.length := by
  have h := (List.takeWhile_sublist (· != Text.newline) (l := t)).length_le
  unfold lineLength
  simp only
  split
  · omega
  · exact h

/-- A part of a text up to the offset `stop`. -/
def Span.Before (s : Span) (stop : Nat) : Prop := s.lo ≤ s.hi ∧ s.hi ≤ stop

/-- The lines that are passed forward end where the text does. -/
theorem before_of_linesAhead {n lo hi : Nat} {rest : Text} {s : Span} (hle : lo ≤ hi)
    (h : linesAhead n lo hi rest = some s) : s.Before (hi + rest.length) := by
  induction n generalizing lo hi rest with
  | zero =>
      cases h
      exact ⟨hle, Nat.le_add_right _ _⟩
  | succ n ih =>
      cases rest with
      | nil =>
          rw [linesAhead] at h
          split at h
          · cases h
            exact ⟨Nat.le_refl _, Nat.le_add_right _ _⟩
          · cases h
      | cons b t =>
          have hline := lineLength_le (b :: t)
          have hbefore := ih (Nat.le_add_right _ _) h
          rw [List.length_drop] at hbefore
          exact ⟨hbefore.1, Nat.le_trans hbefore.2 (by omega)⟩

/-- Moving forward by lines leads to a span inside the text. -/
theorem before_of_forwardLines {t : Text} {hi n : Nat} {s : Span} (hhi : hi ≤ t.length)
    (h : forwardLines t hi n = some s) : s.Before t.length := by
  unfold forwardLines at h
  have hline := lineLength_le (t.drop hi)
  rw [List.length_drop] at hline
  have hbefore := before_of_linesAhead (Nat.le_refl _) h
  rw [List.length_drop] at hbefore
  refine ⟨hbefore.1, Nat.le_trans hbefore.2 ?_⟩
  split
  · omega
  · omega

theorem length_toLineStart_le (back : Text) : (toLineStart back).length ≤ back.length :=
  (List.dropWhile_sublist _).length_le

/-- The lines that are passed backward end before the line one starts from. -/
theorem before_of_linesBehind {n hi : Nat} {back : Text} {s : Span} (hle : back.length ≤ hi)
    (h : linesBehind n hi back = some s) : s.Before hi := by
  induction n generalizing hi back with
  | zero =>
      cases h
      exact ⟨hle, Nat.le_refl _⟩
  | succ n ih =>
      cases back with
      | nil =>
          rw [linesBehind] at h
          split at h
          · cases h
            exact ⟨Nat.le_refl _, Nat.zero_le _⟩
          · cases h
      | cons b t =>
          have hbefore := ih (Nat.le_trans (length_toLineStart_le t) (Nat.le_succ _)) h
          exact ⟨hbefore.1, Nat.le_trans hbefore.2 hle⟩

/-- Moving backward by lines leads to a span inside the text. -/
theorem before_of_backwardLines {t : Text} {lo n : Nat} {s : Span}
    (h : backwardLines t lo n = some s) :
    s.Before t.length := by
  have hbefore := before_of_linesBehind (Nat.le_refl _) h
  have hback := length_toLineStart_le (t.take lo).reverse
  rw [List.length_reverse, List.length_take] at hback
  exact ⟨hbefore.1, Nat.le_trans hbefore.2 (by omega)⟩

/-- Runes take no more bytes than there are, so counting them forward stops at the end. -/
theorem le_of_runesAhead {n offset i : Nat} {rest : Text} (h : runesAhead n offset rest = some i) :
    i ≤ offset + rest.length := by
  induction n generalizing offset rest with
  | zero =>
      cases h
      exact Nat.le_add_right _ _
  | succ n ih =>
      cases rest with
      | nil => cases h
      | cons b t =>
          obtain ⟨-, hwidth⟩ := Rune.width_getD b t
          rw [runesAhead, Rune.decode?] at h
          generalize (Rune.sequence? (b :: t)).getD (Rune.replacement, 1) = read at h hwidth
          have hle := ih h
          rw [List.length_drop] at hle
          omega

/-- Moving forward by runes leads to an offset of the text. -/
theorem le_of_forwardRunes {t : Text} {offset n i : Nat} (hoffset : offset ≤ t.length)
    (h : forwardRunes t offset n = some i) : i ≤ t.length := by
  have hle := le_of_runesAhead h
  rw [List.length_drop] at hle
  omega

/-- Counting runes backward never leads to a later offset. -/
theorem le_of_runesBehind {n i : Nat} {back : Text} (h : runesBehind n back = some i) :
    i ≤ back.length := by
  induction n generalizing back with
  | zero =>
      cases h
      exact Nat.le_refl _
  | succ n ih =>
      cases back with
      | nil => cases h
      | cons b t =>
          have hle := ih h
          rw [List.length_drop] at hle
          omega

/-- Moving backward by runes leads to an offset of the text. -/
theorem le_of_backwardRunes {t : Text} {offset n i : Nat} (h : backwardRunes t offset n = some i) :
    i ≤ t.length := by
  have hle := le_of_runesBehind h
  rw [List.length_reverse, List.length_take] at hle
  omega

end Motion

/-- A range that lies in a text, its start no later than its end. -/
structure AddressRange.Within (r : AddressRange) (t : Text) : Prop where
  lo_nonneg : 0 ≤ r.lo
  lo_le_hi : r.lo ≤ r.hi
  hi_le : r.hi ≤ t.length

/-- A range of which both ends lie in a text. -/
structure AddressRange.InText (r : AddressRange) (t : Text) : Prop where
  lo_nonneg : 0 ≤ r.lo
  lo_le : r.lo ≤ t.length
  hi_nonneg : 0 ≤ r.hi
  hi_le : r.hi ≤ t.length

/-- A range with its ends in order is in particular a range of the text. -/
theorem AddressRange.Within.inText {r : AddressRange} {t : Text} (h : r.Within t) : r.InText t where
  lo_nonneg := h.lo_nonneg
  lo_le := Int.le_trans h.lo_le_hi h.hi_le
  hi_nonneg := Int.le_trans h.lo_nonneg h.lo_le_hi
  hi_le := h.hi_le

namespace Address

variable {t : Text}

/-! ## Results in the text -/

/-- A computation ends with a value for which something holds, or with an error that is reported. -/
def Ends {α : Type} (P : α → Prop) (x : Except (Failure Error) α) : Prop :=
  (∃ a, x = .ok a ∧ P a) ∨ ∃ e, x = .error (.cause e)

/-- A motion by lines ends in a range of the text, or in the error for leaving it. -/
theorem ends_ofSpan? {s : Option Motion.Span} (h : ∀ s', s = some s' → s'.Before t.length) :
    Ends (·.Within t) (ofSpan? s) := by
  cases s with
  | none => exact Or.inr ⟨_, rfl⟩
  | some s =>
      obtain ⟨hle, hstop⟩ := h s rfl
      exact Or.inl ⟨_, rfl, Int.natCast_nonneg _, Int.ofNat_le.mpr hle, Int.ofNat_le.mpr hstop⟩

/-- A motion by runes ends in an empty range of the text, or in the error for leaving it. -/
theorem ends_ofOffset? {n : Option Nat} (h : ∀ i, n = some i → i ≤ t.length) :
    Ends (·.Within t) (ofOffset? n) := by
  cases n with
  | none => exact Or.inr ⟨_, rfl⟩
  | some i => exact Or.inl ⟨_, rfl, Int.natCast_nonneg _, Int.le_refl _, Int.ofNat_le.mpr (h i rfl)⟩

theorem offset?_eq_some {position : Int} (h : 0 ≤ position) (h' : position ≤ t.length) :
    offset? t position = some position.toNat := if_pos ⟨h, h'⟩

section

variable {r : AddressRange} (h : r.Within t)

include h

/-- Moving by lines in either direction ends inside the text or in an error. -/
theorem ends_moveLines (d : Direction) (n : Nat) : Ends (·.Within t) (moveLines t r d n) := by
  obtain ⟨hlo, hle, hhi⟩ := h
  cases d with
  | forward =>
      rw [moveLines, offset?_eq_some (by omega) hhi]
      exact ends_ofSpan? fun s hs => Motion.before_of_forwardLines (by omega) hs
  | backward =>
      rw [moveLines, offset?_eq_some hlo (by omega)]
      exact ends_ofSpan? fun s hs => Motion.before_of_backwardLines hs

/-- Moving by runes in either direction ends inside the text or in an error. -/
theorem ends_moveRunes (d : Direction) (n : Nat) : Ends (·.Within t) (moveRunes t r d n) := by
  obtain ⟨hlo, hle, hhi⟩ := h
  cases d with
  | forward =>
      simp only [moveRunes]
      rw [offset?_eq_some (by omega) hhi]
      exact ends_ofOffset? fun i hi => Motion.le_of_forwardRunes (by omega) hi
  | backward =>
      simp only [moveRunes]
      rw [offset?_eq_some hlo (by omega)]
      exact ends_ofOffset? fun i hi => Motion.le_of_backwardRunes hi

/-- A number moves from a range of the text to a range of the text, or fails, whatever it counts and
in whichever direction. -/
theorem ends_move (d : Option Direction) (byRunes : Bool) (n : Nat) :
    Ends (·.Within t) (move t r d byRunes n) := by
  have hstart : AddressRange.Within ⟨0, 0⟩ t := ⟨Int.le_refl _, Int.le_refl _, Int.natCast_nonneg _⟩
  unfold move
  cases d with
  | none =>
      cases byRunes with
      | false => exact ends_moveLines hstart .forward n
      | true => exact ends_moveRunes hstart .forward n
  | some d =>
      cases byRunes with
      | false => exact ends_moveLines h d n
      | true => exact ends_moveRunes h d n

end

/-- A match behind a part that was skipped is a range of the whole text. -/
theorem within_ofMatch {skipped : Nat} {m : Pattern.Match} (h : m.Before (t.length - skipped))
    (hskipped : skipped ≤ t.length) : (ofMatch skipped m).Within t := by
  obtain ⟨hle, hstop⟩ := h
  refine ⟨Int.natCast_nonneg _, ?_, ?_⟩
  · exact Int.ofNat_le.mpr (by omega)
  · exact Int.ofNat_le.mpr (by omega)

/-- What is found is a range of the text, also when the search begins anew at its start. -/
theorem within_of_find? {program : Pattern.Program} {hi : Nat} (hhi : hi ≤ t.length)
    {r : AddressRange} (h : find? program t hi = some r) : r.Within t := by
  unfold find? at h
  split at h
  · next m hm =>
      cases h
      have hbefore := program.before_length_of_find? hm
      rw [List.length_drop] at hbefore
      exact within_ofMatch hbefore hhi
  · split at h
    · cases h
    · obtain ⟨m, hm, rfl⟩ := Option.map_eq_some_iff.mp h
      exact within_ofMatch (program.before_length_of_find? hm) (Nat.zero_le _)

/-- A search ends in a range of the text or in an error. -/
theorem ends_search {r : AddressRange} (h : r.Within t) (d : Option Direction) (p : Text) :
    Ends (·.Within t) (search t r d p) := by
  obtain ⟨hlo, hle, hhi⟩ := h
  unfold search
  split
  · exact Or.inr ⟨_, rfl⟩
  · split
    · exact Or.inr ⟨_, rfl⟩
    · rw [offset?_eq_some (by omega) hhi]
      simp only
      split
      · next found hfound => exact Or.inl ⟨found, rfl, within_of_find? (by omega) hfound⟩
      · exact Or.inr ⟨_, rfl⟩

/-! ## Tokens -/

/-- What follows the slash of a pattern that is not closed and ends in a backslash with nothing
behind it. -/
inductive CutShort : Text → Prop where
  | backslash : CutShort [Text.backslash]
  | escaped (b : UInt8) {t : Text} (h : CutShort t) : CutShort (Text.backslash :: b :: t)
  | byte {b : UInt8} {t : Text} (hbackslash : b ≠ Text.backslash) (hslash : b ≠ Text.slash)
      (h : CutShort t) :
      CutShort (b :: t)

theorem not_cutShort_nil : ¬ CutShort [] := nofun

theorem cutShort_singleton_iff {b : UInt8} : CutShort [b] ↔ b = Text.backslash := by
  constructor
  · intro h
    cases h with
    | backslash => rfl
    | byte _ _ h => cases h
  · rintro rfl
    exact .backslash

/-- A backslash takes the next byte with it. -/
theorem cutShort_backslash_iff {b : UInt8} {t : Text} :
    CutShort (Text.backslash :: b :: t) ↔ CutShort t := by
  constructor
  · intro h
    cases h with
    | escaped b h => exact h
    | byte hbackslash _ _ => exact absurd rfl hbackslash
  · exact .escaped b

/-- Another byte leaves it to the rest, unless it is the slash that ends the pattern. -/
theorem cutShort_byte_iff {b : UInt8} {t : Text} (hb : b ≠ Text.backslash) :
    CutShort (b :: t) ↔ b ≠ Text.slash ∧ CutShort t := by
  constructor
  · intro h
    cases h with
    | backslash => exact absurd rfl hb
    | escaped => exact absurd rfl hb
    | byte _ hslash h => exact ⟨hslash, h⟩
  · rintro ⟨hslash, h⟩
    exact .byte hb hslash h

/-- Reading a pattern leaves an end of the text, and gives a pattern that is cut short exactly if
the text is, of which nothing is left then. -/
theorem patternToken_spec (read t : Text) :
    (patternToken read t).2 <:+ t ∧
      ((patternToken read t).1 = .cutPattern ↔ CutShort t) ∧
      (CutShort t → (patternToken read t).2 = []) := by
  fun_induction patternToken read t with
  | case1 read => exact ⟨List.suffix_rfl, by simp [not_cutShort_nil], by simp⟩
  | case2 read => exact ⟨List.nil_suffix, by simp [cutShort_singleton_iff], by simp⟩
  | case3 read hb => exact ⟨List.nil_suffix, by simp [cutShort_singleton_iff, hb], by simp⟩
  | case4 read b hb hslash => exact ⟨List.nil_suffix, by simp [cutShort_singleton_iff, hb], by simp⟩
  | case5 read c t ih =>
      rw [cutShort_backslash_iff]
      exact ⟨ih.1.trans ⟨[Text.backslash, c], rfl⟩, ih.2⟩
  | case6 read c t hb =>
      rw [cutShort_byte_iff hb]
      exact ⟨List.suffix_cons _ _, by simp, by simp⟩
  | case7 read b c t hb hslash ih =>
      rw [cutShort_byte_iff hb, and_iff_right hslash]
      exact ⟨ih.1.trans (List.suffix_cons _ _), ih.2⟩

/-- Reading a token leaves an end of the text, and only a slash starts a pattern that is cut
short. -/
theorem nextToken_spec (b : UInt8) (t : Text) :
    (nextToken b t).2 <:+ t ∧
      ((nextToken b t).1 = .cutPattern → b = Text.slash ∧ CutShort t ∧ (nextToken b t).2 = []) := by
  unfold nextToken
  split
  · exact ⟨List.suffix_rfl, nofun⟩
  split
  · exact ⟨List.suffix_rfl, nofun⟩
  split
  · exact ⟨List.suffix_rfl, nofun⟩
  split
  · exact ⟨List.suffix_rfl, nofun⟩
  split
  · exact ⟨List.suffix_rfl, nofun⟩
  split
  · exact ⟨List.dropWhile_suffix _, nofun⟩
  split
  · next hslash =>
      obtain ⟨hsuffix, hcut, hnil⟩ := patternToken_spec [] t
      exact ⟨hsuffix, fun h => ⟨hslash, hcut.mp h, hnil (hcut.mp h)⟩⟩
  · exact ⟨List.suffix_rfl, nofun⟩

/-- A pattern that is cut short is the last token, and the address ends in it. -/
theorem cutShort_of_suffix_tokensUpTo {fuel : Nat} {address : Text} {rest : List Token}
    (h : .cutPattern :: rest <:+ tokensUpTo fuel address) :
    rest = [] ∧ ∃ before body, address = before ++ Text.slash :: body ∧ CutShort body := by
  induction fuel generalizing address with
  | zero => cases List.suffix_nil.mp h
  | succ fuel ih =>
      cases address with
      | nil => cases List.suffix_nil.mp h
      | cons b t =>
          obtain ⟨⟨read, ht⟩, hcut⟩ := nextToken_spec b t
          rw [tokensUpTo, List.suffix_cons_iff] at h
          rcases h with h | h
          · obtain ⟨htoken, hrest⟩ := List.cons.inj h
            obtain ⟨rfl, hbody, hnil⟩ := hcut htoken.symm
            refine ⟨?_, [], t, rfl, hbody⟩
            rw [hrest, hnil]
            cases fuel with
            | zero => rfl
            | succ fuel => rfl
          · obtain ⟨hrest, before, body, haddress, hbody⟩ := ih h
            refine ⟨hrest, b :: (read ++ before), body, ?_, hbody⟩
            rw [List.cons_append, List.append_assoc, ← haddress, ht]

/-! ## Evaluation -/

/-- A computation that goes on with what another one gives ends if both do. -/
theorem Ends.bind {α β : Type} {P : α → Prop} {Q : β → Prop} {x : Except (Failure Error) α}
    {f : α → Except (Failure Error) β} (h : Ends P x) (hf : ∀ a, P a → Ends Q (f a)) :
    Ends Q (x >>= f) := by
  rcases h with ⟨a, rfl, ha⟩ | ⟨e, rfl⟩
  · exact hf a ha
  · exact Or.inr ⟨e, rfl⟩

/-- What ends in a value or an error uses nothing that is not there. -/
theorem Ends.ne_absent {α : Type} {P : α → Prop} {x : Except (Failure Error) α} (h : Ends P x) :
    x ≠ .error .absent := by
  rcases h with ⟨a, rfl, -⟩ | ⟨e, rfl⟩ <;> simp

/-- Digits are read as a number or refused. -/
theorem ends_number (digits : Text) : Ends (fun _ => True) (number digits) := by
  unfold number
  split
  · exact Or.inl ⟨_, rfl, trivial⟩
  · exact Or.inr ⟨_, rfl⟩

/-- A sign without a number moves by one, and ends as every motion does. -/
theorem ends_afterSign {s : State} (h : s.range.Within t) : Ends (·.Within t) (afterSign t s) := by
  unfold afterSign
  split
  · exact ends_move h _ _ _
  · exact Or.inl ⟨_, rfl, h⟩

/-- **One token.** Unless it is a pattern that is cut short, the range stays in the text
or there is an error. -/
theorem ends_step {s : State} (h : s.range.Within t) (more : Bool) {token : Token}
    (hcut : token ≠ .cutPattern) :
    Ends (fun s' : State => s'.range.Within t) (step t s more token) := by
  have hend : AddressRange.Within ⟨t.length, t.length⟩ t :=
    ⟨Int.natCast_nonneg _, Int.le_refl _, Int.le_refl _⟩
  cases token with
  | comma => exact Or.inl ⟨s, rfl, h⟩
  | sign d => exact (ends_afterSign h).bind fun r hr => Or.inl ⟨_, rfl, hr⟩
  | last => exact Or.inl ⟨_, rfl, hend⟩
  | runes => exact Or.inl ⟨_, rfl, h⟩
  | number digits =>
      exact (ends_number digits).bind fun n _ => (ends_move h _ _ n).bind fun r hr =>
        Or.inl ⟨_, rfl, hr⟩
  | pattern p => exact (ends_search h _ p).bind fun r hr => Or.inl ⟨_, rfl, hr⟩
  | cutPattern => exact absurd rfl hcut
  | other b => exact Or.inr ⟨_, rfl⟩

/-- An evaluation comes from some tokens and a state to later tokens and a state, without an error
on the way. A comma starts anew at the end of the range. -/
inductive Reaches (t : Text) : List Token → State → List Token → State → Prop where
  | refl (tokens : List Token) (s : State) : Reaches t tokens s tokens s
  | comma {rest later : List Token} {s s' : State}
      (h : Reaches t rest { range := ⟨s.range.hi, s.range.hi⟩ } later s') :
        Reaches t (.comma :: rest) s later s'
  | token {token : Token} {rest later : List Token} {s next s' : State} (hne : token ≠ .comma)
      (hstep : step t s (!rest.isEmpty) token = .ok next) (h : Reaches t rest next later s') :
      Reaches t (token :: rest) s later s'

/-- The tokens that are left are the last ones. -/
theorem Reaches.isSuffix {tokens later : List Token} {s s' : State}
    (h : Reaches t tokens s later s') :
    later <:+ tokens := by
  induction h with
  | refl => exact List.suffix_rfl
  | comma _ ih => exact ih.trans (List.suffix_cons _ _)
  | token _ _ _ ih => exact ih.trans (List.suffix_cons _ _)

/-- Behind a comma stands an address of its own, which is evaluated from the end of the range so
far. -/
theorem run_comma {rest : List Token} (hrest : rest ≠ []) (s : State) :
    run t (.comma :: rest) s
      = (run t rest { range := ⟨s.range.hi, s.range.hi⟩ } >>= fun stop =>
        .ok ⟨s.range.lo, stop.hi⟩) := by
  rw [run, if_neg (by simpa using hrest)]
  rfl

/-- Any other token takes one step. -/
theorem run_token {token : Token} (hne : token ≠ .comma) (rest : List Token) (s : State) :
    run t (token :: rest) s = (step t s (!rest.isEmpty) token >>= fun next => run t rest next) := by
  cases token with
  | comma => exact absurd rfl hne
  | sign | last | runes | number | pattern | cutPattern | other => rfl

/-- An evaluation that comes to a pattern that is cut short breaks down. -/
theorem run_of_reaches {tokens rest : List Token} {s s' : State}
    (h : Reaches t tokens s (.cutPattern :: rest) s') :
    run t tokens s = .error .absent := by
  generalize hlater : Token.cutPattern :: rest = later at h
  induction h with
  | refl =>
      subst hlater
      rfl
  | comma h ih =>
      have hrest := h.isSuffix
      rw [← hlater] at hrest
      rw [run_comma (fun hnil => by cases List.suffix_nil.mp (hnil ▸ hrest)), ih hlater]
      rfl
  | token hne hstep _ ih =>
      rw [run_token hne, hstep]
      exact ih hlater

/-- An evaluation ends with a range in the text or an error, unless it comes to a
pattern that is cut short. -/
theorem run_cases {tokens : List Token} {s : State} (h : s.range.Within t) :
    Ends (·.InText t) (run t tokens s) ∨
      ∃ rest s', Reaches t tokens s (.cutPattern :: rest) s' := by
  induction tokens generalizing s with
  | nil =>
      refine Or.inl ?_
      rw [run]
      split
      · rcases ends_move h _ _ _ with ⟨r, hr, hwithin⟩ | herror
        · exact Or.inl ⟨r, hr, hwithin.inText⟩
        · exact Or.inr herror
      · exact Or.inl ⟨_, rfl, h.inText⟩
  | cons token rest ih =>
      have hin := h.inText
      by_cases hcomma : token = .comma
      · subst hcomma
        by_cases hrest : rest = []
        · subst hrest
          exact Or.inl
            (Or.inl ⟨_, rfl, hin.lo_nonneg, hin.lo_le, Int.natCast_nonneg _, Int.le_refl _⟩)
        · have hstart : AddressRange.Within ⟨s.range.hi, s.range.hi⟩ t :=
            ⟨hin.hi_nonneg, Int.le_refl _, hin.hi_le⟩
          rw [run_comma hrest]
          rcases ih (s := { range := ⟨s.range.hi, s.range.hi⟩ }) hstart with
            hends | ⟨more, s', hreaches⟩
          · exact Or.inl (hends.bind fun r hr =>
              Or.inl ⟨_, rfl, hin.lo_nonneg, hin.lo_le, hr.hi_nonneg, hr.hi_le⟩)
          · exact Or.inr ⟨more, s', .comma hreaches⟩
      · by_cases hcut : token = .cutPattern
        · subst hcut
          exact Or.inr ⟨rest, s, .refl _ _⟩
        · rw [run_token hcomma]
          rcases ends_step h (!rest.isEmpty) hcut with ⟨next, hstep, hnext⟩ | ⟨e, hstep⟩
          · rw [hstep]
            exact (ih hnext).imp_right fun ⟨more, s', hreaches⟩ =>
              ⟨more, s', .token hcomma hstep hreaches⟩
          · rw [hstep]
            exact Or.inl (Or.inr ⟨e, rfl⟩)

/-- An address is evaluated token by token, unless it has none. -/
theorem eval_cases (address : Text) (start : Int) (t : Text) :
    tokens address = [] ∧ eval address start t = .ok ⟨start, t.length⟩ ∨
      eval address start t = run t (tokens address) { range := ⟨start, start⟩ } := by
  cases address with
  | nil => exact Or.inl ⟨rfl, rfl⟩
  | cons b address => exact Or.inr rfl

/-- **Addresses stay in the text.** From a place in a text, an address gives a range in the text or
an error, or its evaluation breaks down. It breaks down if and only if it comes, without an error on
the way, to a last token that is a pattern cut short. Then the address ends in a slash and a pattern
that is not closed and ends in a backslash. -/
theorem eval_ends_unless_cut (address t : Text) (start : Int) (hstart : 0 ≤ start)
    (hlength : start ≤ t.length) :
    ((∃ r, eval address start t = .ok r ∧ r.InText t) ∨
      (∃ e, eval address start t = .error (.cause e)) ∨
      eval address start t = .error .absent) ∧
    (eval address start t = .error .absent ↔
      ∃ s, Reaches t (tokens address) { range := ⟨start, start⟩ } [.cutPattern] s) ∧
    (eval address start t = .error .absent →
      ∃ before body, address = before ++ Text.slash :: body ∧ CutShort body) := by
  have hcut : ∀ {rest : List Token} {s : State},
      Reaches t (tokens address) { range := ⟨start, start⟩ } (.cutPattern :: rest) s →
        rest = [] ∧ ∃ before body, address = before ++ Text.slash :: body ∧ CutShort body :=
    fun h => cutShort_of_suffix_tokensUpTo h.isSuffix
  rcases eval_cases address start t with ⟨htokens, heval⟩ | heval
  · have hnot : ¬ ∃ s, Reaches t (tokens address) { range := ⟨start, start⟩ } [.cutPattern] s := by
      rintro ⟨s, hreaches⟩
      have hsuffix := hreaches.isSuffix
      rw [htokens] at hsuffix
      cases List.suffix_nil.mp hsuffix
    rw [heval]
    refine ⟨Or.inl ⟨_, rfl, hstart, hlength, Int.natCast_nonneg _, Int.le_refl _⟩, ?_, nofun⟩
    exact iff_of_false nofun hnot
  · rw [heval]
    rcases @run_cases t (tokens address) { range := ⟨start, start⟩ }
      ⟨hstart, Int.le_refl _, hlength⟩ with hends | ⟨rest, s, hreaches⟩
    · have hnot := hends.ne_absent
      refine ⟨hends.imp_right Or.inl, ?_, fun h => absurd h hnot⟩
      exact iff_of_false hnot fun ⟨s, hreaches⟩ => hnot (run_of_reaches hreaches)
    · obtain ⟨rfl, hpattern⟩ := hcut hreaches
      have habsent := run_of_reaches hreaches
      exact ⟨Or.inr (Or.inr habsent), iff_of_true habsent ⟨s, hreaches⟩, fun _ => hpattern⟩

/-- The line that this address starts from is not there, which is an error, so the pattern behind it
that is cut short is not come to. -/
theorem eval_ends_unless_cut_behind_error :
    (∃ e, eval "9,/a\\" 0 "ab\n" = .error (.cause e)) ∧
      ¬ ∃ s, Reaches "ab\n" (tokens "9,/a\\") { range := ⟨0, 0⟩ } [.cutPattern] s := by
  have herror : eval "9,/a\\" 0 "ab\n" = .error (.cause .outOfRange) := rfl
  obtain ⟨-, hiff, -⟩ := eval_ends_unless_cut "9,/a\\" "ab\n" 0 (by decide) (by decide)
  refine ⟨⟨_, herror⟩, fun h => ?_⟩
  cases herror.symm.trans (hiff.mpr h)

/-- A slash and a backslash are not reported as an address. -/
theorem cut_pattern_not_reported :
    ∃ address start t, 0 ≤ start ∧ start ≤ (t : Text).length ∧
      eval address start t = .error .absent :=
  ⟨"/\\", 0, "a", by decide, by decide, rfl⟩

end Address

end PointerMigration
