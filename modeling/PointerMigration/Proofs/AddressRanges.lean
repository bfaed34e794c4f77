/-
# Ranges of addresses

The range that an address denotes lies in the text. Without a comma no token puts the end of the
range before its start. A comma between slashes is part of a pattern and not one of the address.
-/
import PointerMigration.Proofs.AddressBounds

namespace PointerMigration.Address

/-! ## Commas outside patterns -/

/-- Where a byte of an address stands. -/
inductive Place where
  | outside
  | inPattern
  /-- Behind a backslash of a pattern. -/
  | escaped
  deriving DecidableEq, Repr

/-- Where the byte behind a byte stands. -/
def Place.next : Place → UInt8 → Place
  | .outside, b => if b = Text.slash then .inPattern else .outside
  | .inPattern, b =>
    if b = Text.slash then .outside else if b = Text.backslash then .escaped else .inPattern
  | .escaped, _ => .inPattern

/-- Whether the rest of an address has a comma outside its patterns. -/
def commaFrom : Place → Text → Bool
  | _, [] => false
  | p, b :: t => (p = .outside && b = 44) || commaFrom (p.next b) t

/-- Whether an address has a comma outside its patterns. -/
def hasComma (address : Text) : Bool := commaFrom .outside address

/-- A byte outside of patterns that is neither a comma nor a slash is passed. -/
theorem commaFrom_cons_of_ne {b : UInt8} (hcomma : b ≠ 44) (hslash : b ≠ Text.slash) (t : Text) :
    commaFrom .outside (b :: t) = commaFrom .outside t := by
  simp [commaFrom, Place.next, hcomma, hslash]

/-- A digit is neither a comma nor a slash. -/
theorem commaFrom_cons_of_isDigit {b : UInt8} (hdigit : Text.isDigit b = true) (t : Text) :
    commaFrom .outside (b :: t) = commaFrom .outside t := by
  refine commaFrom_cons_of_ne ?_ ?_ t
  · rintro rfl
    exact absurd hdigit (by decide)
  · rintro rfl
    exact absurd hdigit (by decide)

theorem commaFrom_dropWhile_isDigit (t : Text) :
    commaFrom .outside (t.dropWhile Text.isDigit) = commaFrom .outside t := by
  induction t with
  | nil => rfl
  | cons b t ih =>
      by_cases hdigit : Text.isDigit b = true
      · rw [List.dropWhile_cons_of_pos hdigit, ih, commaFrom_cons_of_isDigit hdigit]
      · rw [List.dropWhile_cons_of_neg hdigit]

/-- Behind a pattern the address goes on outside of it. -/
theorem commaFrom_patternToken (read t : Text) :
    commaFrom .outside (patternToken read t).2 = commaFrom .inPattern t := by
  fun_induction patternToken read t with
  | case1 => rfl
  | case2 => rfl
  | case3 => rfl
  | case4 => simp [commaFrom]
  | case5 read c t ih =>
      rw [ih]
      simp [commaFrom, Place.next, Text.backslash, Text.slash]
  | case6 read c t => simp [commaFrom, Place.next]
  | case7 read b c t hbackslash hslash ih =>
      rw [ih]
      simp [commaFrom, Place.next, hbackslash, hslash]

theorem patternToken_ne_comma (read t : Text) : (patternToken read t).1 ≠ .comma := by
  fun_induction patternToken read t <;> simp_all

/-- A comma outside the patterns is the first token or stands behind it. -/
theorem commaFrom_nextToken (b : UInt8) (t : Text) :
    commaFrom .outside (b :: t) = true ↔
      (nextToken b t).1 = .comma ∨ commaFrom .outside (nextToken b t).2 = true := by
  unfold nextToken
  split
  · next hb => simp [hb, commaFrom]
  next hcomma =>
  have hne : ∀ c : UInt8, c ≠ 44 → c ≠ Text.slash → b = c →
      (commaFrom .outside (b :: t) = true ↔ commaFrom .outside t = true) := by
    rintro c hc hslash rfl
    rw [commaFrom_cons_of_ne hc hslash]
  split
  · next hb => simp [hne _ (by decide) (by decide) hb]
  split
  · next hb => simp [hne _ (by decide) (by decide) hb]
  split
  · next hb => simp [hne _ (by decide) (by decide) hb]
  split
  · next hb => simp [hne _ (by decide) (by decide) hb]
  split
  · next hdigit => simp [commaFrom_cons_of_isDigit hdigit, commaFrom_dropWhile_isDigit]
  split
  · next hslash =>
      rw [commaFrom_patternToken, or_iff_right (patternToken_ne_comma [] t), hslash]
      simp [commaFrom, Place.next, Text.slash]
  · next hslash => simp [hne b hcomma hslash rfl]

/-- The comma tokens of an address are its commas outside patterns. -/
theorem comma_mem_tokensUpTo_iff {fuel : Nat} {address : Text} (hfuel : address.length ≤ fuel) :
    .comma ∈ tokensUpTo fuel address ↔ commaFrom .outside address = true := by
  induction fuel generalizing address with
  | zero =>
      obtain rfl := List.length_eq_zero_iff.mp (Nat.le_zero.mp hfuel)
      simp [tokensUpTo, commaFrom]
  | succ fuel ih =>
      cases address with
      | nil => simp [tokensUpTo, commaFrom]
      | cons b t =>
          have hrest := (nextToken_spec b t).1.length_le
          rw [List.length_cons] at hfuel
          rw [tokensUpTo, List.mem_cons, ih (by omega), commaFrom_nextToken, eq_comm]

/-- An address has the token for a comma if and only if it has a comma outside of patterns. -/
theorem comma_mem_tokens_iff (address : Text) : .comma ∈ tokens address ↔ hasComma address = true :=
  comma_mem_tokensUpTo_iff (Nat.le_refl _)

/-! ## Evaluation -/

variable {t : Text}

theorem Ends.of_eq_ok {α : Type} {P : α → Prop} {x : Except (Failure Error) α}
    (h : Ends P x) {a : α} (hx : x = .ok a) : P a := by
  rcases h with ⟨b, hb, hP⟩ | ⟨e, he⟩
  · cases hx.symm.trans hb
    exact hP
  · cases hx.symm.trans he

/-- Two computations in a row give a result if both do. -/
theorem bind_eq_ok_iff {α β : Type} {x : Except (Failure Error) α}
    {f : α → Except (Failure Error) β} {b : β} :
    (x >>= f) = .ok b ↔ ∃ a, x = .ok a ∧ f a = .ok b := by
  cases x with
  | error e => exact ⟨nofun, nofun⟩
  | ok a => exact ⟨fun h => ⟨a, rfl, h⟩, fun ⟨_, ha, h⟩ => by cases ha; exact h⟩

/-- Without a comma an evaluation that comes to its end keeps the range in the text, its start no
later than its end. -/
theorem within_of_run {tokens : List Token} (hcomma : .comma ∉ tokens) {s : State}
    (h : s.range.Within t) {r : AddressRange} (hrun : run t tokens s = .ok r) : r.Within t := by
  induction tokens generalizing s with
  | nil =>
      rw [run] at hrun
      split at hrun
      · exact (ends_move h _ _ _).of_eq_ok hrun
      · cases hrun
        exact h
  | cons token rest ih =>
      rw [List.mem_cons, not_or] at hcomma
      obtain ⟨hne, hrest⟩ := hcomma
      rw [run_token (Ne.symm hne)] at hrun
      by_cases hcut : token = .cutPattern
      · subst hcut
        cases hrun
      · rcases ends_step h (!rest.isEmpty) hcut with ⟨next, hstep, hnext⟩ | ⟨e, hstep⟩
        · rw [hstep] at hrun
          exact ih hrest hnext hrun
        · rw [hstep] at hrun
          cases hrun

/-- Running tokens gives a range of the text, though its ends may be out of order. -/
theorem inText_of_run {tokens : List Token} {s : State} (h : s.range.Within t) {r : AddressRange}
    (hrun : run t tokens s = .ok r) : r.InText t := by
  rcases run_cases h with hends | ⟨rest, s', hreaches⟩
  · exact hends.of_eq_ok hrun
  · cases hrun.symm.trans (run_of_reaches hreaches)

section

variable {address : Text} {start : Int} (hstart : 0 ≤ start) (hlength : start ≤ t.length)
  {r : AddressRange} (h : eval address start t = .ok r)

include hstart hlength h

/-- A range that an address denotes lies in the text. -/
theorem inText_of_eval : r.InText t := by
  rcases eval_cases address start t with ⟨-, heval⟩ | heval
  · cases heval.symm.trans h
    exact ⟨hstart, hlength, Int.natCast_nonneg _, Int.le_refl _⟩
  · exact inText_of_run (s := { range := ⟨start, start⟩ }) ⟨hstart, Int.le_refl _, hlength⟩
      (heval.symm.trans h)

/-- Without a comma its ends are in order. -/
theorem within_of_eval (hcomma : hasComma address = false) : r.Within t := by
  rcases eval_cases address start t with ⟨-, heval⟩ | heval
  · cases heval.symm.trans h
    exact ⟨hstart, hlength, Int.le_refl _⟩
  · have htokens : .comma ∉ tokens address := by simp [comma_mem_tokens_iff, hcomma]
    exact within_of_run (s := { range := ⟨start, start⟩ }) htokens ⟨hstart, Int.le_refl _, hlength⟩
      (heval.symm.trans h)

/-- **Ranges of addresses.** What an address denotes from a place in a text starts and ends in the
text, and without a comma outside its patterns it does not end before it starts. -/
theorem range_in_text_of_eval : r.InText t ∧ (hasComma address = false → r.lo ≤ r.hi) :=
  ⟨inText_of_eval hstart hlength h, fun hcomma => (within_of_eval hstart hlength h hcomma).lo_le_hi⟩

end

/-- The comma of this address is part of its pattern, which is found only before the place
where the search starts. -/
theorem range_in_text_of_eval_pattern :
    hasComma "/a,/+#1" = false ∧ eval "/a,/+#1" 3 "a,b\n" = .ok ⟨3, 3⟩ ∧
      AddressRange.Within ⟨3, 3⟩ "a,b\n" := by
  have hcomma : hasComma "/a,/+#1" = false := rfl
  have heval : eval "/a,/+#1" 3 "a,b\n" = .ok ⟨3, 3⟩ := by decide +kernel
  obtain ⟨hin, hle⟩ := range_in_text_of_eval (by decide) (by decide) heval
  exact ⟨hcomma, heval, hin.lo_nonneg, hle hcomma, hin.hi_le⟩

-- With a comma the end can come first.
example : hasComma "2,0" = true ∧ eval "2,0" 0 "a\nb\n" = .ok ⟨2, 0⟩ := ⟨rfl, rfl⟩

end PointerMigration.Address
