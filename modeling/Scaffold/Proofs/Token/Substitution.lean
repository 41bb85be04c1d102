import Scaffold.Proofs.Token.Filler

/-!
# Code in a substitution

A template is one token, whatever code stands in its substitutions.  The end of a substitution is
found without reading the tokens in it: strings and templates are skipped, braces are counted, and
everything else is passed over, comments and regular expressions too.

* `openBehind` counts braces; the braces of a text and those of its tokens are told by
  `CodePoint.brace?` and `Token.brace?`.
* Code that has tokens with nested braces is passed over as a whole, and a template that holds it is
  one token (`tokenize_substitution`), if no comment and no regular expression in it has a quote or
  an unmatched brace (`IsQuiet`).
* An apostrophe in a comment is taken for a string (`tokenize_substitution_comment`).
-/

namespace Scaffold

open CodePoint

/-- A brace. -/
inductive Brace where
  /-- The one that opens. -/
  | opening
  /-- The one that closes. -/
  | closing
  deriving DecidableEq, Repr

/-- How many braces are open behind the given ones, if `depth` are open before them; nothing if one
closes that was not opened. -/
def openBehind : Nat → List Brace → Option Nat
  | depth, [] => some depth
  | depth, .opening :: braces => openBehind (depth + 1) braces
  | 0, .closing :: _ => none
  | depth + 1, .closing :: braces => openBehind depth braces

theorem openBehind_append (depth : Nat) (braces braces' : List Brace) :
    openBehind depth (braces ++ braces') =
      (openBehind depth braces).bind (openBehind · braces') := by
  fun_induction openBehind depth braces with
  | case1 => rfl
  | case2 _ _ ih => exact ih
  | case3 => rfl
  | case4 _ _ ih => exact ih

/-- Further braces that are open all the time do not matter. -/
theorem openBehind_add {depth depth' : Nat} {braces : List Brace}
    (h : openBehind depth braces = some depth') (d : Nat) :
    openBehind (depth + d) braces = some (depth' + d) := by
  fun_induction openBehind depth braces with
  | case1 =>
    cases h
    rfl
  | case2 depth braces ih =>
    rw [openBehind, Nat.add_right_comm]
    exact ih h
  | case3 => cases h
  | case4 depth braces ih =>
    rw [Nat.succ_add, openBehind]
    exact ih h

/-- The brace that a code point is. -/
def CodePoint.brace? (c : CodePoint) : Option Brace :=
  if c = .scalar '\x7b' then some .opening
  else if c = .scalar '\x7d' then some .closing
  else none

/-- The brace that a token of the kind and value is. -/
def Lexeme.brace? : Lexeme → Option Brace
  | (.punct, [c]) => c.brace?
  | _ => none

/-- The brace that a token is. -/
def Token.brace? (t : Token) : Option Brace := Lexeme.brace? (t.kind, t.value)

/-- A string or a template begins with the code point. -/
def CodePoint.IsQuote (c : CodePoint) : Prop :=
  c = .scalar '\'' ∨ c = .scalar '"' ∨ c = .scalar '\x60'

instance : DecidablePred CodePoint.IsQuote := fun _ => inferInstanceAs (Decidable (_ ∨ _ ∨ _))

/-- No quote stands in the text, and its braces are nested. -/
def IsQuiet (t : Text) : Prop := (∀ c ∈ t, ¬ c.IsQuote) ∧ openBehind 0 (t.filterMap brace?) = some 0

instance : DecidablePred IsQuiet := fun _ => inferInstanceAs (Decidable (_ ∧ _))

/-- What stands before each of the tokens, from offset `start` on. -/
def gaps (source : Text) : Nat → List Token → List Text
  | _, [] => []
  | start, t :: ts => source.slice start t.start :: gaps source t.stop ts

/-! ### What is passed over -/

namespace PassesOver

variable {depth depth' depth'' : Nat} {t u : Text}

/-- A code point that begins no string or template is passed over, and counted if it is a brace. -/
theorem codePoint {c : CodePoint} (hquote : ¬ c.IsQuote)
    (hdepth : openBehind depth c.brace?.toList = some depth') : PassesOver depth [c] depth' := by
  obtain ⟨hstring, htemplate⟩ := not_or.1 (or_assoc.not.2 hquote)
  unfold CodePoint.brace? at hdepth
  split_ifs at hdepth with hopen hclose
  · obtain rfl : depth + 1 = depth' := Option.some.inj hdepth
    exact hopen ▸ .opening depth
  · cases depth with
    | zero => cases hdepth
    | succ depth =>
      obtain rfl : depth = depth' := Option.some.inj hdepth
      exact hclose ▸ .closing depth
  · obtain rfl : depth = depth' := Option.some.inj hdepth
    exact .other hstring htemplate hopen hclose depth

/-- A text without quotes is passed over, and its braces are counted. -/
theorem text (hquotes : ∀ c ∈ t, ¬ c.IsQuote)
    (hdepth : openBehind depth (t.filterMap brace?) = some depth') : PassesOver depth t depth' := by
  induction t generalizing depth with
  | nil =>
    cases hdepth
    exact .nil _
  | cons c t ih =>
    have hsplit : (c :: t).filterMap brace? = c.brace?.toList ++ t.filterMap brace? := by
      rw [List.filterMap_cons]
      cases c.brace? <;> rfl
    rw [hsplit, openBehind_append] at hdepth
    obtain ⟨d, hd, hdepth⟩ := Option.bind_eq_some_iff.1 hdepth
    obtain ⟨hquote, hquotes⟩ := List.forall_mem_cons.1 hquotes
    exact (codePoint hquote hd).append (ih hquotes hdepth)

theorem quiet (h : IsQuiet t) (depth : Nat) : PassesOver depth t depth := by
  have hdepth := openBehind_add h.2 depth
  rw [Nat.zero_add] at hdepth
  exact text h.1 hdepth

/-- Neither a quote nor a brace is among code points that do not interrupt. -/
theorem marks (h : ∀ c ∈ t, ¬ Interrupts c) (depth : Nat) : PassesOver depth t depth := by
  have hquotes : ∀ c ∈ t, ¬ c.IsQuote := fun c hc hquote => h c hc <| by
    rcases hquote with rfl | rfl | rfl <;> decide
  have hbraces : t.filterMap brace? = [] := List.filterMap_eq_nil_iff.2 fun c hc => by
    have hopen : c ≠ .scalar '\x7b' := fun heq => h c hc (heq ▸ by decide)
    have hclose : c ≠ .scalar '\x7d' := fun heq => h c hc (heq ▸ by decide)
    rw [CodePoint.brace?, if_neg hopen, if_neg hclose]
  exact text hquotes (by rw [hbraces]; rfl)

end PassesOver

/-! ### Names, numbers and marks -/

theorem not_interrupts_of_mem_spanWhile {p : CodePoint → Bool}
    (hp : ∀ c, Interrupts c → p c = false) {t : Text} {c : CodePoint}
    (h : c ∈ (Text.spanWhile p t).1) : ¬ Interrupts c := fun hc => by
  have := List.mem_takeWhile_imp h
  rw [hp c hc] at this
  cases this

theorem not_interrupts_of_mem_scanLargeMark {t : Text} {c : CodePoint}
    (h : c ∈ (scanLargeMark t).1) : ¬ Interrupts c := by
  unfold scanLargeMark at h
  split at h
  · obtain rfl := List.mem_singleton.1 h
    decide
  · cases h

theorem not_interrupts_of_mem_scanFraction {t : Text} {c : CodePoint}
    (h : c ∈ (scanFraction t).1) : ¬ Interrupts c := by
  unfold scanFraction at h
  split at h
  · rcases List.mem_cons.1 h with rfl | h
    · decide
    · exact not_interrupts_of_mem_spanWhile (fun _ h => h.digit) h
  · cases h

theorem not_interrupts_of_mem_scanExponent {t : Text} {c : CodePoint}
    (h : c ∈ (scanExponent t).1) : ¬ Interrupts c := by
  cases t with
  | nil => cases h
  | cons e t =>
    by_cases he : e.toAsciiLower = .scalar 'e'
    · rw [scanExponent_cons he] at h
      split_ifs at h
      · cases h
      · rw [List.cons_append, List.mem_cons, List.mem_append] at h
        rcases h with rfl | h | h
        · exact fun hc => toAsciiLower_ne_of_interrupts hc (by decide) he
        · unfold splitSign at h
          split at h
          · obtain rfl := List.mem_singleton.1 h
            decide
          · obtain rfl := List.mem_singleton.1 h
            decide
          · cases h
        · exact not_interrupts_of_mem_spanWhile (fun _ h => (Bool.or_eq_false_iff.1 h.digit).1) h
    · rw [scanExponent_of_head (by rintro _ ⟨⟩; exact he)] at h
      cases h

theorem not_interrupts_of_mem_scanDecimal {first : CodePoint} {t : Text} {c : CodePoint}
    (h : c ∈ (scanDecimal first t).1) : ¬ Interrupts c := by
  simp only [scanDecimal, List.mem_append] at h
  rcases h with ((h | h) | h) | h
  · exact not_interrupts_of_mem_spanWhile (fun _ h => h.digit) h
  · split at h
    · cases h
    · exact not_interrupts_of_mem_scanFraction h
  · exact not_interrupts_of_mem_scanExponent h
  · exact not_interrupts_of_mem_scanLargeMark h

theorem not_interrupts_of_mem_scanMarked? {mark : Char} (hmark : mark.isLower = true)
    {t read rest : Text} (hread : scanMarked? mark t = some (read, rest)) {c : CodePoint}
    (h : c ∈ read) : ¬ Interrupts c := by
  cases t with
  | nil => cases hread
  | cons m t =>
    by_cases hm : m.toAsciiLower = .scalar mark
    · rw [scanMarked?_cons hm] at hread
      split_ifs at hread
      obtain ⟨rfl, -⟩ := Prod.mk.inj (Option.some.inj hread)
      rw [List.cons_append, List.mem_cons, List.mem_append] at h
      rcases h with rfl | h | h
      · exact fun hc => toAsciiLower_ne_of_interrupts hc hmark hm
      · exact not_interrupts_of_mem_spanWhile (fun _ h => isMarkedPart_of_interrupts h) h
      · exact not_interrupts_of_mem_scanLargeMark h
    · rw [scanMarked?, if_neg hm] at hread
      cases hread

theorem not_interrupts_of_mem_scanNumber {first : CodePoint} {t : Text} {c : CodePoint}
    (h : c ∈ (scanNumber first t).1) : ¬ Interrupts c := by
  unfold scanNumber at h
  dsimp only at h
  split_ifs at h
  · cases hx : scanMarked? 'x' t with
    | some p => exact not_interrupts_of_mem_scanMarked? (by decide) hx (by simpa [hx] using h)
    | none =>
      cases hb : scanMarked? 'b' t with
      | some p => exact not_interrupts_of_mem_scanMarked? (by decide) hb (by simpa [hx, hb] using h)
      | none =>
        cases ho : scanMarked? 'o' t with
        | some p =>
          exact not_interrupts_of_mem_scanMarked? (by decide) ho (by simpa [hx, hb, ho] using h)
        | none => exact not_interrupts_of_mem_scanDecimal (by simpa [hx, hb, ho] using h)
  · exact not_interrupts_of_mem_scanDecimal h

theorem not_interrupts_of_beginsNumber {c : CodePoint} {t : Text} (h : beginsNumber c t = true) :
    ¬ Interrupts c := by
  rcases beginsNumber_iff.1 h with hdigit | ⟨rfl, -⟩
  · intro hc
    have := isNumberPart_of_isAsciiDigit hdigit
    rw [hc.digit] at this
    cases this
  · decide

theorem not_interrupts_of_isIdentStart {c : CodePoint} (h : isIdentStart c = true) :
    ¬ Interrupts c := fun hc => by
  have := hc.name
  rw [isIdentPart, h] at this
  cases this

/-! ### Tokens -/

/-- A mark is the code point alone, or several code points that no brace is among. -/
theorem scanPunct_cases (c : CodePoint) (t : Text) :
    scanPunct c t = [c] ∨ ∀ d ∈ scanPunct c t, ¬ Interrupts d := by
  unfold scanPunct
  cases hfound : longPuncts.find? (Text.startsWith (c :: t)) with
  | none => exact .inl rfl
  | some word =>
    exact .inr (not_interrupts_of_mem_longPuncts (List.mem_of_find?_eq_some hfound))

theorem Lexeme.brace?_of_marks {kind : TokenKind} {value : Text}
    (h : ∀ c ∈ value, ¬ Interrupts c) : Lexeme.brace? (kind, value) = none := by
  unfold Lexeme.brace?
  split
  · rename_i c heq
    obtain ⟨-, rfl⟩ := Prod.mk.inj heq
    have hc := h c (List.mem_singleton_self c)
    have hopen : c ≠ .scalar '\x7b' := fun heq => hc (heq ▸ by decide)
    have hclose : c ≠ .scalar '\x7d' := fun heq => hc (heq ▸ by decide)
    rw [CodePoint.brace?, if_neg hopen, if_neg hclose]
  · rfl

/-- A token is passed over, and counted if it is a brace. -/
theorem passesOver_of_scanToken {operand : Bool} {c : CodePoint} {read rest : Text} {l : Lexeme}
    (h : Scans (scanToken operand c (read ++ rest)) l rest) (hregex : l.1 = .regex → IsQuiet l.2)
    {depth depth' : Nat} (hdepth : openBehind depth l.brace?.toList = some depth') :
    PassesOver depth (c :: read) depth' := by
  unfold scanToken at h
  split_ifs at h with hstring htemplate hslash hnumber hident
  · obtain ⟨v, hv, rfl⟩ := h.of_lift
    obtain ⟨body, -, hbody, hscans⟩ := scanString_local hv
    obtain rfl := List.append_cancel_right hbody
    cases hdepth
    exact .string hstring hscans _
  · obtain ⟨v, hv, rfl⟩ := h.of_lift
    obtain ⟨body, -, hbody, hscans⟩ := scanTemplate_local hv
    obtain rfl := List.append_cancel_right hbody
    subst htemplate
    cases hdepth
    exact .template hscans _
  · split at h
    · obtain ⟨s, hs, -⟩ := h; cases hs
    · obtain ⟨s, hs, rfl, hrest⟩ := h
      cases hs
      dsimp only at hregex hrest
      rw [hrest, ← List.cons_append, consumed_append_rest] at hregex
      cases hdepth
      exact .quiet (hregex rfl) _
  · obtain ⟨s, hs, rfl, hrest⟩ := h
    cases hs
    have hsplit := scanNumber_append_rest c (read ++ rest)
    dsimp only at hrest
    rw [hrest] at hsplit
    cases hdepth
    refine .marks (List.forall_mem_cons.2 ⟨not_interrupts_of_beginsNumber hnumber, ?_⟩) _
    rw [← List.append_cancel_right hsplit]
    exact fun _ => not_interrupts_of_mem_scanNumber
  · obtain ⟨s, hs, rfl, hrest⟩ := h
    cases hs
    have hsplit := spanWhile_append_rest isIdentPart (read ++ rest)
    rw [show (Text.spanWhile isIdentPart (read ++ rest)).2 = rest from hrest] at hsplit
    cases hdepth
    refine .marks (List.forall_mem_cons.2 ⟨not_interrupts_of_isIdentStart hident, ?_⟩) _
    rw [← List.append_cancel_right hsplit]
    exact fun _ => not_interrupts_of_mem_spanWhile fun _ h => h.name
  · obtain ⟨s, hs, rfl, hrest⟩ := h
    cases hs
    have hsplit := scanPunct_append_drop c (read ++ rest)
    rw [show List.drop _ _ = rest from hrest, ← List.cons_append] at hsplit
    have hread : scanPunct c (read ++ rest) = c :: read := List.append_cancel_right hsplit
    dsimp only at hdepth
    rw [hread] at hdepth
    rcases scanPunct_cases c (read ++ rest) with hsingle | hmarks
    · obtain rfl : read = [] := (List.cons.inj (hread.symm.trans hsingle)).2
      exact .codePoint (fun hquote => not_or.2 ⟨hstring, htemplate⟩ (or_assoc.2 hquote)) hdepth
    · rw [hread] at hmarks
      rw [Lexeme.brace?_of_marks hmarks] at hdepth
      cases hdepth
      exact .marks hmarks _

/-- The last part of a source is passed over if its tokens have nested braces, and the gaps between
them and their regular expressions are quiet.  Of the gap before the first token `passed` stands
before the part. -/
theorem Lexes.passesOver {start : Nat} {operand : Bool} {t : Text} {ts : List Token}
    (h : Lexes start operand t ts) {source before passed : Text}
    (hsource : source = before ++ (passed ++ t)) (hstart : start = before.length + passed.length)
    (hgaps : ∀ gap ∈ gaps source before.length ts, IsQuiet gap)
    (hregex : ∀ t ∈ ts, t.kind = .regex → IsQuiet t.value) {depth depth' : Nat}
    (hdepth : openBehind depth (ts.filterMap Token.brace?) = some depth') :
    PassesOver depth (passed ++ t) depth' := by
  induction h generalizing before passed depth with
  | @done start operand filler =>
    cases hdepth
    obtain ⟨hgap, -⟩ := List.forall_mem_cons.1 hgaps
    have hslice := slice_append before (passed ++ filler) []
    rw [List.append_nil, ← hsource, List.length_append, ← Nat.add_assoc, ← hstart] at hslice
    exact .quiet (hslice ▸ hgap) _
  | @skip start operand filler t ts _ _ ih =>
    rw [← List.append_assoc passed] at hsource ⊢
    refine ih hsource ?_ hgaps hregex hdepth
    rw [hstart, List.length_append, Nat.add_assoc]
  | @token start operand c read rest l ts _ hscan _ ih =>
    obtain ⟨hgap, hgaps⟩ := List.forall_mem_cons.1 hgaps
    obtain ⟨hfirst, hregex⟩ := List.forall_mem_cons.1 hregex
    have hsplit : (⟨l.1, l.2, start, start + (c :: read).length⟩ :: ts).filterMap Token.brace? =
        l.brace?.toList ++ ts.filterMap Token.brace? := by
      rw [List.filterMap_cons, Token.brace?]
      cases l.brace? <;> rfl
    rw [hsplit, openBehind_append] at hdepth
    obtain ⟨d, hd, hdepth⟩ := Option.bind_eq_some_iff.1 hdepth
    have hslice := slice_append before passed (c :: (read ++ rest))
    rw [← hsource, ← hstart] at hslice
    have hpassed : PassesOver depth passed depth := .quiet (hslice ▸ hgap) _
    -- behind the token the next gap begins
    have hbehind : start + (c :: read).length = (before ++ passed ++ c :: read).length := by
      rw [hstart, List.length_append, List.length_append]
    have hrest : PassesOver d rest depth' :=
      @ih (before ++ passed ++ c :: read) [] (by simp [hsource]) hbehind (hbehind ▸ hgaps) hregex d
        hdepth
    exact hpassed.append ((passesOver_of_scanToken hscan hfirst hd).append hrest)

/-- **Code in a substitution does not end the template.**  Where code with a line feed behind it has
tokens, and their braces are nested, a template with this code in a substitution is one token, if
the text between the tokens and the regular expressions among them are quiet. -/
theorem tokenize_substitution {code : Text} {ts : List Token}
    (h : tokenize (code ++ "\n") = .ok ts)
    (hbraces : openBehind 0 (ts.filterMap Token.brace?) = some 0)
    (hgaps : ∀ gap ∈ gaps (code ++ "\n") 0 ts, IsQuiet gap)
    (hregex : ∀ t ∈ ts, t.kind = .regex → IsQuiet t.value) :
    tokenize ("\x60$\x7b" ++ (code ++ "\n\x7d\x60")) =
      .ok [⟨.template true, [], 0, code.length + 6⟩, Token.endOf (code.length + 6)] := by
  have hlexes : Lexes 0 false (code ++ "\n") ts := lexes_of_tokensFrom h (Nat.zero_add _).symm
  have hpasses : PassesOver 0 (code ++ "\n") 0 :=
    @Lexes.passesOver _ _ _ _ hlexes _ [] [] rfl rfl hgaps hregex _ _ hbraces
  -- the substitution ends at the brace, and the template at the backquote
  have hsubstitution : Scans (skipSubstitution 0 (code ++ "\n\x7d\x60")) () [.scalar '\x60'] := by
    have hsplit : code ++ Text.ofString "\n\x7d\x60" =
        code ++ Text.ofString "\n" ++ [CodePoint.scalar '\x7d', .scalar '\x60'] := by
      rw [List.append_assoc]
      rfl
    rw [hsplit]
    exact hpasses _ _ (skipSubstitution_brace _)
  have hscan : Scans (scanToken false (.scalar '\x60')
      ((.scalar '$' :: .scalar '\x7b' :: (code ++ Text.ofString "\n\x7d\x60")) ++ []))
      (.template true, []) [] := by
    rw [List.append_nil, scanToken, if_neg (by decide), if_pos rfl]
    exact (scanTemplate_substitution hsubstitution (scanTemplate_quote _ _)).lift
      (fun v : Text × Bool => (TokenKind.template v.2, v.1)) _
  have hread := (@Lexes.token 0 _ _ _ _ _ _ ⟨by decide, rfl, rfl⟩ hscan (.done .nil)).tokensFrom
  have hlength : (CodePoint.scalar '\x60' :: .scalar '$' :: .scalar '\x7b' ::
      (code ++ Text.ofString "\n\x7d\x60")).length = code.length + 6 := by
    simp [Text.ofString]
  rw [List.append_nil, Nat.zero_add, hlength, List.length_nil] at hread
  change tokensFrom (CodePoint.scalar '\x60' :: .scalar '$' :: .scalar '\x7b' ::
    (code ++ Text.ofString "\n\x7d\x60")).length false _ = _
  rw [hlength]
  exact hread

/-- Braces in a string, in a regular expression and in a nested template do not end the template,
and neither does a comment without quotes. -/
theorem tokenize_substitution_braces :
    tokenize ("\x60$\x7b" ++
      (Text.ofString "f('\x7d', /\\d\x7b3\x7d/, \x60$\x7bx\x7d\x60) // done" ++ "\n\x7d\x60")) =
      .ok [⟨.template true, [], 0, 37⟩, Token.endOf 37] := by
  have htokens : tokenize
      (Text.ofString "f('\x7d', /\\d\x7b3\x7d/, \x60$\x7bx\x7d\x60) // done" ++ "\n") =
      .ok [⟨.ident, "f", 0, 1⟩, ⟨.punct, "(", 1, 2⟩, ⟨.string, "\x7d", 2, 5⟩, ⟨.punct, ",", 5, 6⟩,
        ⟨.regex, "/\\d\x7b3\x7d/", 7, 14⟩, ⟨.punct, ",", 14, 15⟩, ⟨.template true, "", 16, 22⟩,
        ⟨.punct, ")", 22, 23⟩, Token.endOf 32] := Except.eq_ok_of_toOption (by decide +kernel)
  exact tokenize_substitution htokens (by decide) (by decide) (by decide)

/-- An apostrophe in a comment begins a string for the substitution, and there are no tokens,
although the code alone has tokens and no brace. -/
theorem tokenize_substitution_comment :
    tokenize (Text.ofString "x // it's" ++ "\n") = .ok [⟨.ident, "x", 0, 1⟩, Token.endOf 10] ∧
      (tokenize ("\x60$\x7b" ++ (Text.ofString "x // it's" ++ "\n\x7d\x60"))).toOption = none :=
  ⟨Except.eq_ok_of_toOption (by decide +kernel), by decide +kernel⟩

end Scaffold
