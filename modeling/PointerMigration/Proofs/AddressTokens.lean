/-
# Tokens of joined addresses

Reading a token looks at most at the byte behind it, to see where a number ends. So an address whose
patterns are all closed keeps its tokens when more follows it, unless a digit comes next, and what
follows is read on its own.
-/
import PointerMigration.Proofs.AbsoluteAddresses
import PointerMigration.Proofs.AddressRanges

namespace PointerMigration.Address

/-! ## One token after another -/

theorem tokensUpTo_succ_cons (fuel : Nat) (b : UInt8) (t : Text) :
    tokensUpTo (fuel + 1) (b :: t) = (nextToken b t).1 :: tokensUpTo fuel (nextToken b t).2 := rfl

/-- As many tokens as there are bytes are enough, and more make no difference. -/
theorem tokensUpTo_of_le {fuel fuel' : Nat} {address : Text} (h : address.length ≤ fuel)
    (h' : address.length ≤ fuel') : tokensUpTo fuel address = tokensUpTo fuel' address := by
  induction fuel generalizing fuel' address with
  | zero =>
      obtain rfl := List.length_eq_zero_iff.mp (Nat.le_zero.mp h)
      cases fuel' with
      | zero => rfl
      | succ fuel' => rfl
  | succ fuel ih =>
      cases address with
      | nil =>
          cases fuel' with
          | zero => rfl
          | succ fuel' => rfl
      | cons b t =>
          rw [List.length_cons] at h h'
          obtain ⟨fuel', rfl⟩ := Nat.exists_eq_succ_of_ne_zero (show fuel' ≠ 0 by omega)
          have hrest := (nextToken_spec b t).1.length_le
          rw [tokensUpTo_succ_cons, tokensUpTo_succ_cons]
          exact congrArg _ (ih (by omega) (by omega))

/-- The tokens of an address are the first one and those of what follows it. -/
theorem tokens_cons (b : UInt8) (t : Text) :
    tokens (b :: t) = (nextToken b t).1 :: tokens (nextToken b t).2 := by
  have hrest := (nextToken_spec b t).1.length_le
  rw [tokens, List.length_cons, tokensUpTo_succ_cons, tokensUpTo_of_le hrest (Nat.le_refl _)]
  rfl

/-- Only the empty address has no tokens. -/
theorem tokens_eq_nil_iff {address : Text} : tokens address = [] ↔ address = [] := by
  cases address with
  | nil => simp [tokens, tokensUpTo]
  | cons b t => simp [tokens_cons]

/-- An address that is not empty is evaluated token by token. -/
theorem eval_eq_run {address : Text} (h : address ≠ []) (start : Int) (t : Text) :
    eval address start t = run t (tokens address) { range := ⟨start, start⟩ } := by
  rw [eval, if_neg (by simpa using h)]

/-- An address with a token is evaluated by running its tokens from an empty range. -/
theorem eval_of_tokens {address : Text} {token : Token} {rest : List Token}
    (h : tokens address = token :: rest) (start : Int) (t : Text) :
    eval address start t = run t (token :: rest) { range := ⟨start, start⟩ } := by
  have hne : address ≠ [] := by
    rintro rfl
    cases h
  rw [eval_eq_run hne, h]

/-! ## Closed patterns -/

/-- Where what follows a text stands, if the text starts at a place. -/
def Place.behind (p : Place) (t : Text) : Place := t.foldl Place.next p

/-- Whether all patterns of an address are closed. -/
def isClosed (address : Text) : Bool := Place.outside.behind address = .outside

theorem Place.behind_cons (p : Place) (b : UInt8) (t : Text) :
    p.behind (b :: t) = (p.next b).behind t := rfl

/-- The place behind two texts is that behind the second, from behind the first. -/
theorem Place.behind_append (p : Place) (t u : Text) : p.behind (t ++ u) = (p.behind t).behind u :=
  List.foldl_append

theorem Place.next_outside {b : UInt8} (h : b ≠ Text.slash) :
    Place.outside.next b = .outside := if_neg h

/-- A text without a slash does not lead into a pattern. -/
theorem Place.behind_outside_of_notMem {t : Text} (h : Text.slash ∉ t) :
    Place.outside.behind t = .outside := by
  induction t with
  | nil => rfl
  | cons b t ih =>
      rw [List.mem_cons, not_or] at h
      rw [behind_cons, next_outside (Ne.symm h.1), ih h.2]

/-- Digits outside of a pattern make no difference to the place. -/
theorem Place.behind_dropWhile_isDigit (t : Text) :
    Place.outside.behind (t.dropWhile Text.isDigit) = Place.outside.behind t := by
  induction t with
  | nil => rfl
  | cons b t ih =>
      by_cases hdigit : Text.isDigit b = true
      · have hslash : b ≠ Text.slash := by
          rintro rfl
          exact absurd hdigit (by decide)
        rw [List.dropWhile_cons_of_pos hdigit, ih, behind_cons, next_outside hslash]
      · rw [List.dropWhile_cons_of_neg hdigit]

/-! ## What follows an address -/

/-- A number ends before a byte that is no digit. -/
theorem takeWhile_dropWhile_append_isDigit {c : UInt8} (hc : Text.isDigit c = false)
    (t later : Text) :
    (t ++ c :: later).takeWhile Text.isDigit = t.takeWhile Text.isDigit ∧
      (t ++ c :: later).dropWhile Text.isDigit = t.dropWhile Text.isDigit ++ c :: later := by
  induction t with
  | nil => simp [hc]
  | cons b t ih =>
      by_cases hdigit : Text.isDigit b = true
      · simp [hdigit, ih]
      · simp [hdigit]

/-- A pattern that is closed is read the same whatever follows. -/
theorem patternToken_append (read t : Text) {later : Text} (hlater : later ≠ [])
    (h : Place.inPattern.behind t = .outside) :
    patternToken read (t ++ later) = ((patternToken read t).1, (patternToken read t).2 ++ later) ∧
      Place.outside.behind (patternToken read t).2 = .outside := by
  obtain ⟨c, later, rfl⟩ := List.exists_cons_of_ne_nil hlater
  fun_induction patternToken read t with
  | case1 read => cases h
  | case2 read => cases h
  | case3 read hb => exact ⟨by simp [patternToken, Text.slash, Text.backslash], rfl⟩
  | case4 read b hb hslash => simp [Place.behind, Place.next, hb, hslash] at h
  | case5 read d t ih =>
      rw [List.cons_append, List.cons_append, patternToken, if_pos rfl]
      exact ih h
  | case6 read d t hb =>
      rw [List.cons_append, List.cons_append, patternToken, if_neg hb, if_pos rfl]
      exact ⟨rfl, h⟩
  | case7 read b d t hb hslash ih =>
      have hnext : Place.inPattern.next b = .inPattern := by
        rw [Place.next, if_neg hslash, if_neg hb]
      rw [Place.behind_cons, hnext] at h
      rw [List.cons_append, List.cons_append, patternToken, if_neg hb, if_neg hslash]
      exact ih h

/-- A token of an address whose patterns are closed is read the same whatever follows,
unless that is a digit. -/
theorem nextToken_append {c : UInt8} (hc : Text.isDigit c = false) (b : UInt8) (t later : Text)
    (h : Place.outside.behind (b :: t) = .outside) :
    nextToken b (t ++ c :: later) = ((nextToken b t).1, (nextToken b t).2 ++ c :: later) ∧
      Place.outside.behind (nextToken b t).2 = .outside := by
  rw [Place.behind_cons] at h
  have hout : b ≠ Text.slash → Place.outside.behind t = .outside := by
    intro hslash
    rwa [Place.next_outside hslash] at h
  have hmark : ∀ d : UInt8, d ≠ Text.slash → b = d → Place.outside.behind t = .outside := by
    rintro d hd rfl
    exact hout hd
  unfold nextToken
  split
  · next hb => exact ⟨rfl, hmark _ (by decide) hb⟩
  split
  · next hb => exact ⟨rfl, hmark _ (by decide) hb⟩
  split
  · next hb => exact ⟨rfl, hmark _ (by decide) hb⟩
  split
  · next hb => exact ⟨rfl, hmark _ (by decide) hb⟩
  split
  · next hb => exact ⟨rfl, hmark _ (by decide) hb⟩
  split
  · next hdigit =>
      obtain ⟨htake, hdrop⟩ := takeWhile_dropWhile_append_isDigit hc t later
      rw [htake, hdrop]
      refine ⟨rfl, (Place.behind_dropWhile_isDigit t).trans (hout ?_)⟩
      rintro rfl
      exact absurd hdigit (by decide)
  split
  · next hslash =>
      rw [hslash] at h
      exact patternToken_append [] t (List.cons_ne_nil c later) h
  · next hslash => exact ⟨rfl, hout hslash⟩

/-- **Joined addresses.** The tokens of an address whose patterns are closed stay what they are when
more follows, and what follows has its own. -/
theorem tokens_append {c : UInt8} (hc : Text.isDigit c = false) {address : Text}
    (h : isClosed address = true) (later : Text) :
    tokens (address ++ c :: later) = tokens address ++ tokens (c :: later) := by
  have hclosed : Place.outside.behind address = .outside := of_decide_eq_true h
  clear h
  -- The induction is on the length, as a token may have any number of bytes.
  induction hlength : address.length using Nat.strongRecOn generalizing address with
  | ind n ih =>
    cases address with
    | nil => rfl
    | cons b t =>
        have hrest := (nextToken_spec b t).1.length_le
        rw [List.length_cons] at hlength
        obtain ⟨hnext, hbehind⟩ := nextToken_append hc b t later hclosed
        rw [List.cons_append, tokens_cons, hnext, tokens_cons b t, ih _ (by omega) hbehind rfl,
          List.cons_append]

/-! ## Numbers and patterns -/

/-- A number is one token. -/
theorem tokens_of_writes {digits : Text} {n : Nat} (h : Decimal.Writes digits n) :
    tokens digits = [.number digits] :=
  tokensUpTo_of_writes h (by simpa using h.ne_nil)

theorem slash_notMem_of_writes {digits : Text} {n : Nat} (h : Decimal.Writes digits n) :
    Text.slash ∉ digits :=
  fun hmem => absurd (h.isDigit _ hmem) (by decide)

theorem isClosed_of_writes {digits : Text} {n : Nat} (h : Decimal.Writes digits n) :
    isClosed digits = true :=
  decide_eq_true (Place.behind_outside_of_notMem (slash_notMem_of_writes h))

/-- A pattern without slashes and backslashes ends with the next slash. -/
theorem patternToken_of_notMem {re : Text} (hslash : Text.slash ∉ re)
    (hbackslash : Text.backslash ∉ re) (read later : Text) :
    patternToken read (re ++ Text.slash :: later) = (.pattern (read.reverse ++ re), later) := by
  induction re generalizing read with
  | nil =>
      cases later with
      | nil => simp [patternToken, Text.slash, Text.backslash]
      | cons c later => simp [patternToken, Text.slash, Text.backslash]
  | cons b re ih =>
      rw [List.mem_cons, not_or] at hslash hbackslash
      -- Behind a byte of the pattern there is another byte or the closing slash.
      obtain ⟨c, rest, hrest⟩ :=
        List.exists_cons_of_ne_nil (show re ++ Text.slash :: later ≠ [] by simp)
      rw [List.cons_append, hrest, patternToken, if_neg (Ne.symm hbackslash.1),
        if_neg (Ne.symm hslash.1), ← hrest, ih hslash.2 hbackslash.2]
      simp

/-- A pattern without slashes and backslashes between slashes is one token. -/
theorem tokens_slashed {re : Text} (hslash : Text.slash ∉ re) (hbackslash : Text.backslash ∉ re) :
    tokens (Text.slash :: (re ++ [Text.slash])) = [.pattern re] := by
  have hnext : nextToken Text.slash (re ++ [Text.slash]) = (.pattern re, []) :=
    patternToken_of_notMem hslash hbackslash [] []
  rw [tokens_cons, hnext]
  rfl

end PointerMigration.Address
