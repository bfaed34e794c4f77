/-
# Commas in addresses

A comma takes the range that the tokens before it have led to, and what follows it starts at the end
of that range. A direction that is left over moves by one at the end of an address, but at a comma
it is forgotten. So a range from one address to another starts where the first one starts unless the
motion that the first one leaves over moves it.
-/
import PointerMigration.Proofs.ForwardSearch

namespace PointerMigration

namespace Address

variable {t : Text}

/-! ## Tokens in front of a comma -/

/-- The state behind some tokens; `more` says whether others follow them. -/
def pass (t : Text) (more : Bool) : List Token → State → Except (Failure Error) State
  | [], s => .ok s
  | token :: rest, s => do
    let s ← step t s (!rest.isEmpty || more) token
    pass t more rest s

/-- Without a comma the tokens are passed, and a direction left over moves by one. -/
theorem run_eq_pass {tokens : List Token} (hcomma : .comma ∉ tokens) (s : State) :
    run t tokens s = (pass t false tokens s >>= run t []) := by
  induction tokens generalizing s with
  | nil => rfl
  | cons token rest ih =>
      rw [List.mem_cons, not_or] at hcomma
      rw [run_token (Ne.symm hcomma.1), pass, Bool.or_false, bind_assoc]
      exact congrArg _ (funext fun next => ih hcomma.2 next)

/-- In front of a comma the tokens are passed as well. -/
theorem run_append_comma {tokens : List Token} (hcomma : .comma ∉ tokens) (later : List Token)
    (s : State) :
    run t (tokens ++ .comma :: later) s = (pass t true tokens s >>= run t (.comma :: later)) := by
  induction tokens generalizing s with
  | nil => rfl
  | cons token rest ih =>
      rw [List.mem_cons, not_or] at hcomma
      have hmore : (!(rest ++ .comma :: later).isEmpty) = (!rest.isEmpty || true) := by simp
      rw [List.cons_append, run_token (Ne.symm hcomma.1), pass, hmore, bind_assoc]
      exact congrArg _ (funext fun next => ih hcomma.2 next)

/-- What follows a token makes a difference to the direction only. -/
theorem step_more {s next : State} {token : Token} (h : step t s false token = .ok next) :
    ∃ d, step t s true token = .ok { next with direction := d } := by
  cases token with
  | last =>
      cases h
      exact ⟨some .forward, rfl⟩
  | comma | sign | runes | number | pattern | cutPattern | other => exact ⟨next.direction, h⟩

/-- What follows some tokens makes a difference to the direction only. -/
theorem pass_more {tokens : List Token} {s last : State} (h : pass t false tokens s = .ok last) :
    ∃ d, pass t true tokens s = .ok { last with direction := d } := by
  induction tokens generalizing s with
  | nil => exact ⟨last.direction, h⟩
  | cons token rest ih =>
      obtain ⟨next, hstep, hpass⟩ := bind_eq_ok_iff.mp h
      cases rest with
      | nil =>
          -- Only the last token is told whether others follow.
          cases hpass
          obtain ⟨d, hd⟩ := step_more hstep
          exact ⟨d, bind_eq_ok_iff.mpr ⟨_, hd, rfl⟩⟩
      | cons token' rest =>
          obtain ⟨d, hd⟩ := ih hpass
          exact ⟨d, bind_eq_ok_iff.mpr ⟨next, hstep, hd⟩⟩

/-! ## Directions that are left over -/

/-- The direction in force behind a token. -/
def directionBehind (d : Option Direction) (more : Bool) : Token → Option Direction
  | .sign d => some d
  | .last => if more then some .forward else d
  | .number _ => none
  | _ => d

/-- The direction that the tokens of an address leave over. -/
def leftOver : Option Direction → List Token → Option Direction
  | d, [] => d
  | d, token :: rest => leftOver (directionBehind d (!rest.isEmpty) token) rest

/-- The direction behind a token depends on the token alone. -/
theorem direction_of_step {s next : State} {more : Bool} {token : Token}
    (h : step t s more token = .ok next) :
    next.direction = directionBehind s.direction more token := by
  cases token with
  | comma | last | runes =>
      cases h
      rfl
  | sign d =>
      obtain ⟨r, -, hnext⟩ := bind_eq_ok_iff.mp h
      cases hnext
      rfl
  | number digits =>
      obtain ⟨n, -, hmove⟩ := bind_eq_ok_iff.mp h
      obtain ⟨r, -, hnext⟩ := bind_eq_ok_iff.mp hmove
      cases hnext
      rfl
  | pattern p =>
      obtain ⟨r, -, hnext⟩ := bind_eq_ok_iff.mp h
      cases hnext
      rfl
  | cutPattern | other => cases h

/-- The direction behind an address is the one that its tokens leave over. -/
theorem direction_of_pass {tokens : List Token} {s last : State}
    (h : pass t false tokens s = .ok last) :
    last.direction = leftOver s.direction tokens := by
  induction tokens generalizing s with
  | nil =>
      cases h
      rfl
  | cons token rest ih =>
      obtain ⟨next, hstep, hpass⟩ := bind_eq_ok_iff.mp h
      rw [Bool.or_false] at hstep
      rw [ih hpass, direction_of_step hstep]
      rfl

/-- An address without a comma ends in the range that its tokens have led to, or in where the
direction they leave over moves it. -/
theorem exists_pass_of_run {tokens : List Token} (hcomma : .comma ∉ tokens) {s : State}
    {r : AddressRange} (h : run t tokens s = .ok r) :
    ∃ last, pass t true tokens s = .ok last ∧
      (leftOver s.direction tokens = none → last.range = r) ∧
      ∀ d, leftOver s.direction tokens = some d →
        move t last.range (some d) last.byRunes 1 = .ok r := by
  rw [run_eq_pass hcomma] at h
  obtain ⟨last, hpass, hend⟩ := bind_eq_ok_iff.mp h
  obtain ⟨d, hd⟩ := pass_more hpass
  rw [← direction_of_pass hpass]
  refine ⟨_, hd, fun hnone => ?_, fun d hsome => ?_⟩
  · rw [run, hnone] at hend
    cases hend
    rfl
  · rw [run, hsome] at hend
    exact hend

/-! ## Addresses behind a comma -/

/-- Behind a comma an address is evaluated from the end of the range in front of it. -/
theorem run_comma_tokens {b : Text} (hb : b ≠ []) (s : State) :
    run t (.comma :: tokens b) s = (eval b s.range.hi t).map fun stop => ⟨s.range.lo, stop.hi⟩ := by
  have htokens : tokens b ≠ [] := fun h => hb (tokens_eq_nil_iff.mp h)
  rw [run_comma htokens, eval_eq_run hb]
  cases run t (tokens b) { range := ⟨s.range.hi, s.range.hi⟩ } with
  | error e => rfl
  | ok stop => rfl

/-- The place no runes further on is the place itself. -/
theorem eval_here (start : Int) (t : Text) : eval "+#0" start t = .ok ⟨start, start⟩ := by
  have hmove : moveRunes t ⟨start, start⟩ .forward 0 = .ok ⟨start, start⟩ := by
    by_cases hin : 0 ≤ start ∧ start ≤ t.length
    · simp [moveRunes, offset?, hin, Motion.forwardRunes, Motion.runesAhead, ofOffset?]
    · simp [moveRunes, offset?, hin]
  have hstep :
      step t { range := ⟨start, start⟩, direction := some .forward, byRunes := true } false
        (.number "0") = .ok { range := ⟨start, start⟩ } :=
    bind_eq_ok_iff.mpr ⟨0, rfl, bind_eq_ok_iff.mpr ⟨_, hmove, rfl⟩⟩
  have hrest :
      run t [.number "0"] { range := ⟨start, start⟩, direction := some .forward, byRunes := true }
      = .ok ⟨start, start⟩ :=
    bind_eq_ok_iff.mpr ⟨_, hstep, rfl⟩
  exact hrest

/-! ## Patterns that are not closed -/

/-- The pattern of an empty group is found at once. -/
theorem find?_accept (t : Text) : (⟨#[.accept], 0⟩ : Pattern.Program).find? t = some ⟨0, 0⟩ := by
  unfold Pattern.Program.find?
  cases Text.pieces t with
  | nil => rfl
  | cons piece rest => rfl

/-- The empty pattern is found everywhere. -/
theorem eval_group {start : Int} (hstart : 0 ≤ start) (hlength : start ≤ t.length) :
    ∃ r, eval "/()/" start t = .ok r := by
  have hcompile : Pattern.compile (lineMode "()") = .ok ⟨#[.accept], 0⟩ := rfl
  obtain ⟨hfirst, -⟩ := @search_of_compile t _ _ hcompile start.toNat start.toNat (by omega)
  rw [Int.toNat_of_nonneg hstart] at hfirst
  have hstep : step t { range := ⟨start, start⟩ } false (.pattern "()") = .ok { range := _ } :=
    bind_eq_ok_iff.mpr ⟨_, hfirst _ (find?_accept _), rfl⟩
  exact ⟨_, bind_eq_ok_iff.mpr ⟨_, hstep, rfl⟩⟩

/-- A byte that does not belong into an address is an error wherever it stands. -/
theorem run_ne_ok_of_other_mem {tokens : List Token} {b : UInt8} (h : .other b ∈ tokens) (s : State)
    (r : AddressRange) : run t tokens s ≠ .ok r := by
  induction tokens generalizing s r with
  | nil => cases h
  | cons token rest ih =>
      intro hrun
      by_cases hcomma : token = .comma
      · subst hcomma
        have hrest : .other b ∈ rest := by simpa using h
        rw [run_comma (List.ne_nil_of_mem hrest)] at hrun
        obtain ⟨stop, hstop, -⟩ := bind_eq_ok_iff.mp hrun
        exact ih hrest _ _ hstop
      · rw [run_token hcomma] at hrun
        obtain ⟨next, hstep, hnext⟩ := bind_eq_ok_iff.mp hrun
        rcases List.mem_cons.mp h with rfl | hrest
        · cases hstep
        · exact ih hrest _ _ hnext

/-- Behind a pattern that is not closed a slash does not open another pattern but closes this
one. -/
theorem eval_comma_group_ne_ok {a : Text} (h : isClosed a = false) (start : Int)
    (r : AddressRange) :
    eval (a ++ 44 :: Text.ofString "/()/") start t ≠ .ok r := by
  have hclosed : isClosed (a ++ [44, Text.slash]) = true := by
    have hopen : Place.outside.behind a ≠ .outside := of_decide_eq_false h
    refine decide_eq_true ?_
    rw [Place.behind_append]
    cases hplace : Place.outside.behind a with
    | outside => exact absurd hplace hopen
    | inPattern => rfl
    | escaped => rfl
  have hsplit : a ++ 44 :: Text.ofString "/()/"
      = (a ++ [44, Text.slash]) ++ 40 :: [41, Text.slash] := by
    rw [List.append_assoc]
    rfl
  have hmem : .other 40 ∈ tokens (a ++ 44 :: Text.ofString "/()/") := by
    rw [hsplit, tokens_append (by decide) hclosed]
    exact List.mem_append_right _ List.mem_cons_self
  rw [eval_eq_run (by simp)]
  exact run_ne_ok_of_other_mem hmem _ _

/-! ## Ranges from one address to another -/

/-- Behind a comma the second address is evaluated from the end of the first. -/
theorem eval_append_comma {a b : Text} (hb : b ≠ []) (hcomma : hasComma a = false)
    (hclosed : isClosed a = true) (start : Int) {s : State}
    (hpass : pass t true (tokens a) { range := ⟨start, start⟩ } = .ok s) :
    eval (a ++ 44 :: b) start t = (eval b s.range.hi t).map fun stop => ⟨s.range.lo, stop.hi⟩ := by
  have hnot : .comma ∉ tokens a := by simp [comma_mem_tokens_iff, hcomma]
  have htokens : tokens (a ++ 44 :: b) = tokens a ++ .comma :: tokens b := by
    rw [tokens_append (by decide) hclosed, tokens_cons 44 b]
    rfl
  rw [eval_eq_run (by simp), htokens, run_append_comma hnot, hpass]
  exact run_comma_tokens hb s

/-- **Ranges from one address to another.** An address without a comma leads to a range, which the
direction that it leaves over moves by one. In front of a comma the range is not moved: it gives the
start of the whole, and the address behind the comma is evaluated from its end. So the whole goes
from the start of the first address to the end of the second, whatever the second one is, if and
only if the patterns of the first one are closed and the direction that it leaves over, if it leaves
one, does not move its range. -/
theorem comma_spans_iff {a t : Text} {start : Int} {r : AddressRange} (hstart : 0 ≤ start)
    (hlength : start ≤ t.length) (ha : a ≠ []) (hcomma : hasComma a = false)
    (h : eval a start t = .ok r) :
    ∃ s, pass t true (tokens a) { range := ⟨start, start⟩ } = .ok s ∧
      (leftOver none (tokens a) = none → s.range = r) ∧
      (∀ d, leftOver none (tokens a) = some d → move t s.range (some d) s.byRunes 1 = .ok r) ∧
      (isClosed a = true → ∀ b, b ≠ [] →
        eval (a ++ 44 :: b) start t = (eval b s.range.hi t).map fun stop => ⟨s.range.lo, stop.hi⟩) ∧
      ((∀ b r', b ≠ [] → eval b r.hi t = .ok r' → eval (a ++ 44 :: b) start t = .ok ⟨r.lo, r'.hi⟩) ↔
        isClosed a = true ∧ s.range = r) := by
  have hnot : .comma ∉ tokens a := by simp [comma_mem_tokens_iff, hcomma]
  have hrun : run t (tokens a) { range := ⟨start, start⟩ } = .ok r :=
    (eval_eq_run ha start t).symm.trans h
  obtain ⟨s, hpass, hnone, hsome⟩ := exists_pass_of_run hnot hrun
  have hspan : isClosed a = true → ∀ b, b ≠ [] →
      eval (a ++ 44 :: b) start t = (eval b s.range.hi t).map fun stop => ⟨s.range.lo, stop.hi⟩ :=
    fun hclosed b hb => eval_append_comma hb hcomma hclosed start hpass
  refine ⟨s, hpass, hnone, hsome, hspan, fun hlaw => ?_, ?_⟩
  · have hin := inText_of_eval hstart hlength h
    have hclosed : isClosed a = true := by
      by_contra hopen
      obtain ⟨r', hr'⟩ := eval_group hin.hi_nonneg hin.hi_le
      exact eval_comma_group_ne_ok (by simpa using hopen) start _ (hlaw _ r' (by decide) hr')
    have hhere := hlaw "+#0" ⟨r.hi, r.hi⟩ (by decide) (eval_here r.hi t)
    rw [hspan hclosed _ (by decide), eval_here] at hhere
    exact ⟨hclosed, Except.ok.inj hhere⟩
  · rintro ⟨hclosed, hrange⟩ b r' hb hr'
    rw [hspan hclosed b hb, hrange, hr']
    rfl

/-- A number uses up the sign in front of it, and the comma in the pattern is none of the
address. -/
theorem comma_spans_iff_counted :
    hasComma "/b,/-#1" = false ∧ isClosed "/b,/-#1" = true ∧
      leftOver none (tokens "/b,/-#1") = none ∧
      eval "/b,/-#1" 0 "a\nb,\n" = .ok ⟨1, 1⟩ ∧ eval "2" 1 "a\nb,\n" = .ok ⟨2, 5⟩ ∧
      eval "/b,/-#1,2" 0 "a\nb,\n" = .ok ⟨1, 5⟩ := by
  have hcomma : hasComma "/b,/-#1" = false := rfl
  have hclosed : isClosed "/b,/-#1" = true := rfl
  have hleft : leftOver none (tokens "/b,/-#1") = none := rfl
  have heval : eval "/b,/-#1" 0 "a\nb,\n" = .ok ⟨1, 1⟩ := by decide +kernel
  have hline : eval "2" 1 "a\nb,\n" = .ok ⟨2, 5⟩ := rfl
  obtain ⟨s, -, hrange, -, -, hlaw⟩ :=
    comma_spans_iff (by decide) (by decide) (by decide) hcomma heval
  exact ⟨hcomma, hclosed, hleft, heval, hline,
    hlaw.mpr ⟨hclosed, hrange hleft⟩ "2" ⟨2, 5⟩ (by decide) hline⟩

/-- A sign that moves to the second line is forgotten at a comma, so that the range starts
with the first line. -/
theorem comma_forgets_sign :
    hasComma "1+" = false ∧ eval "1+" 0 "1 10\n2 20\n3 30\n" = .ok ⟨5, 10⟩ ∧
      eval "3" 10 "1 10\n2 20\n3 30\n" = .ok ⟨10, 15⟩ ∧
        eval "1+,3" 0 "1 10\n2 20\n3 30\n" = .ok ⟨0, 15⟩ :=
  ⟨rfl, rfl, rfl, rfl⟩

end Address

end PointerMigration
