import Scaffold.Proofs.Token.Template

/-!
# Texts that end what they begin

A text that is put into a file may begin a string, a comment or a bracket that goes on behind it.
A text is *complete* if it does not: it is read as the same tokens wherever it stands, if what
follows begins with a code point that no token goes on with, and its brackets are nested
(`Text.IsComplete`).

* `closersBehind` counts brackets; those of a text and those of its tokens are told by
  `Text.brackets` and `Token.bracket?`.
* Code without quotes and slashes has the brackets that stand in it (`ShowsBrackets.code`), a string
  or a template has none (`IsEnclosed`), and the two may alternate (`ShowsBrackets.enclosed`).
* A complete text has tokens with nested brackets (`Text.IsComplete.tokenize`).
-/

namespace Scaffold

open CodePoint

/-! ### Nested brackets -/

/-- The bracket that closes an opening one. -/
def CodePoint.closer? (c : CodePoint) : Option CodePoint :=
  if c = .scalar '(' then some (.scalar ')')
  else if c = .scalar '[' then some (.scalar ']')
  else if c = .scalar '\x7b' then some (.scalar '\x7d')
  else none

/-- The bracket that a code point is. -/
def CodePoint.bracket? (c : CodePoint) : Option CodePoint :=
  if (Text.ofString "()[]\x7b\x7d").contains c then some c else none

/-- The closing brackets that are awaited behind some brackets, the nearest first, if `closers` are
awaited before them; nothing if one closes that is not awaited. -/
def closersBehind : (closers brackets : List CodePoint) → Option (List CodePoint)
  | closers, [] => some closers
  | closers, c :: brackets =>
    match c.closer? with
    | some closer => closersBehind (closer :: closers) brackets
    | none =>
      match closers with
      | awaited :: closers => if c = awaited then closersBehind closers brackets else none
      | [] => none

/-- Every bracket closes the last one that is open, and none is open at the end. -/
def IsNested (brackets : List CodePoint) : Prop := closersBehind [] brackets = some []

instance : DecidablePred IsNested := fun _ => inferInstanceAs (Decidable (_ = _))

theorem closersBehind_append (closers brackets brackets' : List CodePoint) :
    closersBehind closers (brackets ++ brackets') =
      (closersBehind closers brackets).bind (closersBehind · brackets') := by
  fun_induction closersBehind closers brackets with
  | case1 => rfl
  | case2 _ _ _ _ hopens ih => simpa only [List.cons_append, closersBehind, hopens] using ih
  | case3 _ _ _ hcloses ih => simpa only [List.cons_append, closersBehind, hcloses, if_pos] using ih
  | case4 _ _ hcloses _ _ hne =>
    simp only [List.cons_append, closersBehind, hcloses, if_neg hne, Option.bind_none]
  | case5 _ _ hcloses => simp only [List.cons_append, closersBehind, hcloses, Option.bind_none]

/-- Further brackets that are open all the time do not matter. -/
theorem closersBehind_add {closers closers' brackets : List CodePoint}
    (h : closersBehind closers brackets = some closers') (more : List CodePoint) :
    closersBehind (closers ++ more) brackets = some (closers' ++ more) := by
  fun_induction closersBehind closers brackets with
  | case1 =>
    cases h
    rfl
  | case2 _ _ _ _ hopens ih =>
    simpa only [closersBehind, hopens, ← List.cons_append] using ih h
  | case3 _ _ _ hcloses ih =>
    simpa only [List.cons_append, closersBehind, hcloses, if_pos] using ih h
  | case4 | case5 => cases h

/-- Nested brackets do not matter. -/
theorem closersBehind_of_nested {brackets : List CodePoint} (h : IsNested brackets)
    (closers brackets' : List CodePoint) :
    closersBehind closers (brackets ++ brackets') = closersBehind closers brackets' := by
  have hbrackets := closersBehind_add h closers
  rw [List.nil_append] at hbrackets
  rw [closersBehind_append, hbrackets]
  rfl

/-- The brackets in a text. -/
def Text.brackets (t : Text) : List CodePoint := t.filterMap CodePoint.bracket?

theorem Text.brackets_append (t u : Text) : (t ++ u).brackets = t.brackets ++ u.brackets :=
  List.filterMap_append

/-- The bracket that a token of the kind and value is. -/
def Lexeme.bracket? : Lexeme → Option CodePoint
  | (.punct, [c]) => c.bracket?
  | _ => none

/-- The bracket that a token is. -/
def Token.bracket? (t : Token) : Option CodePoint := t.lexeme.bracket?

/-! ### Code -/

/-- No string, template, comment or regular expression begins in the text. -/
def Text.IsCode (t : Text) : Prop := ∀ c ∈ t, ¬ c.IsQuote ∧ c ≠ .scalar '/'

instance : DecidablePred Text.IsCode := fun t =>
  inferInstanceAs (Decidable (∀ c ∈ t, ¬ c.IsQuote ∧ c ≠ .scalar '/'))

theorem Text.isCode_append {t u : Text} : (t ++ u).IsCode ↔ t.IsCode ∧ u.IsCode :=
  List.forall_mem_append

theorem bracket?_of_not_interrupts {c : CodePoint} (h : ¬ Interrupts c) : c.bracket? = none := by
  refine if_neg fun hmem => h ?_
  have hall : ∀ c ∈ Text.ofString "()[]\x7b\x7d", Interrupts c := by decide
  exact hall c (List.contains_iff_mem.1 hmem)

theorem brackets_of_marks {t : Text} (h : ∀ c ∈ t, ¬ Interrupts c) : t.brackets = [] :=
  List.filterMap_eq_nil_iff.2 fun c hc => bracket?_of_not_interrupts (h c hc)

theorem Lexeme.bracket?_of_marks {kind : TokenKind} {value : Text}
    (h : ∀ c ∈ value, ¬ Interrupts c) : Lexeme.bracket? (kind, value) = none := by
  unfold Lexeme.bracket?
  split
  · rename_i c heq
    obtain ⟨-, rfl⟩ := Prod.mk.inj heq
    exact bracket?_of_not_interrupts (h c (List.mem_singleton_self c))
  · rfl

/-- Where no quote and no slash is, a token is read, and it is a bracket if it begins with one. -/
theorem scanToken_code {c : CodePoint} (hquote : ¬ c.IsQuote) (hslash : c ≠ .scalar '/')
    (t : Text) : ∃ l read rest, t = read ++ rest ∧
      (∀ operand, Scans (scanToken operand c t) l rest) ∧
        l.bracket?.toList = Text.brackets (c :: read) := by
  obtain ⟨hstring, htemplate⟩ := not_or.1 (or_assoc.not.2 hquote)
  have hregex (operand : Bool) : ¬ (c = .scalar '/' ∧ operand = false) := fun h => hslash h.1
  by_cases hnumber : beginsNumber c t = true
  · have hmarks : ∀ d ∈ c :: (scanNumber c t).1, ¬ Interrupts d := List.forall_mem_cons.2
      ⟨not_interrupts_of_beginsNumber hnumber, fun _ => not_interrupts_of_mem_scanNumber⟩
    refine ⟨(.number, c :: (scanNumber c t).1), (scanNumber c t).1, (scanNumber c t).2,
      (scanNumber_append_rest c t).symm,
      fun operand => scansToken_number hstring htemplate (hregex operand) hnumber, ?_⟩
    rw [brackets_of_marks hmarks]
    rfl
  by_cases hident : isIdentStart c = true
  · have hmarks : ∀ d ∈ c :: (scanIdent t).1, ¬ Interrupts d := List.forall_mem_cons.2
      ⟨not_interrupts_of_isIdentStart hident,
        fun _ => not_interrupts_of_mem_spanWhile fun _ h => h.name⟩
    refine ⟨(.ident, c :: (scanIdent t).1), (scanIdent t).1, (scanIdent t).2,
      (spanWhile_append_rest isIdentPart t).symm,
      fun operand => scansToken_ident hstring htemplate (hregex operand) hnumber hident, ?_⟩
    rw [brackets_of_marks hmarks]
    rfl
  obtain ⟨read, rest, hread, rfl, hdrop⟩ := scanPunct_eq_cons c t
  refine ⟨(.punct, c :: read), read, rest, rfl, fun operand => ?_, ?_⟩
  · have hscans := scansToken_punct hstring htemplate (hregex operand) hnumber hident
    rwa [hdrop, hread] at hscans
  · rcases scanPunct_cases c (read ++ rest) with hsingle | hmarks
    · obtain rfl : read = [] := (List.cons.inj (hread.symm.trans hsingle)).2
      rw [Text.brackets, List.filterMap_cons]
      change c.bracket?.toList = _
      cases c.bracket? <;> rfl
    · rw [hread] at hmarks
      rw [brackets_of_marks hmarks, Lexeme.bracket?_of_marks hmarks]
      rfl

/-! ### What a text shows -/

/-- Before a code point that interrupts, the text is read as tokens with the brackets. -/
def ShowsBrackets (t : Text) (brackets : List CodePoint) : Prop :=
  ∃ ls, LexesAs Interrupts t ls ∧ ls.filterMap Lexeme.bracket? = brackets

/-- The text is a string or a template. -/
def IsEnclosed (t : Text) : Prop :=
  IsBreak t ∧ ∃ l, LexesAs (fun _ => True) t [l] ∧ l.bracket? = none

/-- The text is read as tokens with nested brackets, whatever stands before it and behind it, as
long as no token goes on with what is behind it. -/
def Text.IsComplete (t : Text) : Prop := ∃ brackets, ShowsBrackets t brackets ∧ IsNested brackets

theorem Text.IsComplete.tokenize {t : Text} (h : t.IsComplete) :
    ∃ ts, Scaffold.tokenize t = .ok ts ∧ IsNested (ts.filterMap Token.bracket?) := by
  obtain ⟨_, ⟨ls, hlexes, rfl⟩, hnested⟩ := h
  obtain ⟨ts, rfl, htokens⟩ := hlexes.tokenize
  refine ⟨_, htokens, ?_⟩
  rw [List.filterMap_map] at hnested
  rw [List.filterMap_append]
  -- the end of the source is no bracket
  rwa [show List.filterMap Token.bracket? [Token.endOf t.length] = [] from rfl, List.append_nil]

namespace ShowsBrackets

variable {t u : Text} {brackets brackets' : List CodePoint}

theorem append (ht : ShowsBrackets t brackets) (hu : ShowsBrackets u brackets')
    (hbreak : IsBreak u) : ShowsBrackets (t ++ u) (brackets ++ brackets') := by
  obtain ⟨ls, ht, rfl⟩ := ht
  obtain ⟨ms, hu, rfl⟩ := hu
  refine ⟨ls ++ ms, ht.append hu fun rest hrest c hc => ?_, List.filterMap_append⟩
  cases u with
  | nil => exact hrest c hc
  | cons d u => exact hbreak c hc

/-- **Code is read as tokens**, whose brackets are those of the text. -/
theorem code (h : t.IsCode) : ShowsBrackets t t.brackets := by
  induction hn : t.length using Nat.strong_induction_on generalizing t with
  | _ n ih =>
    subst hn
    cases t with
    | nil => exact ⟨[], .nil, rfl⟩
    | cons c t =>
      obtain ⟨⟨hquote, hslash⟩, htail⟩ := List.forall_mem_cons.1 h
      by_cases hblank : c.isBlank = true
      · obtain ⟨ls, hls, hbrackets⟩ := ih t.length (Nat.lt_succ_self _) htail rfl
        refine ⟨ls, (lexesAs_blank hblank).append_anywhere hls, ?_⟩
        have hc : c.bracket? = none := by
          refine if_neg fun hmem => ?_
          have hall : ∀ c ∈ Text.ofString "()[]\x7b\x7d", c.isBlank = false := by decide
          rw [hall c (List.contains_iff_mem.1 hmem)] at hblank
          cases hblank
        rw [hbrackets, Text.brackets, Text.brackets, List.filterMap_cons, hc]
      · obtain ⟨l, read, rest, rfl, hscan, hbracket⟩ := scanToken_code hquote hslash t
        have hshorter : rest.length < (c :: (read ++ rest)).length := by
          rw [List.length_cons, List.length_append]
          omega
        have hrest : Text.IsCode rest := fun d hd => htail d (List.mem_append_right _ hd)
        obtain ⟨ls, hls, hbrackets⟩ := ih rest.length hshorter hrest rfl
        refine ⟨l :: ls, fun n operand tail htail => ?_, ?_⟩
        · -- the first token is read here as it is read where nothing follows
          obtain ⟨read', hread, hlocal⟩ := scanToken_local (hscan operand)
          obtain rfl := List.append_cancel_right hread
          obtain ⟨s, hs, rfl, hleft⟩ :=
            @hlocal rest [] tail (List.append_nil rest).symm htail
          obtain ⟨start, stop, htokens⟩ :=
            tokensFrom_cons n (Bool.eq_false_iff.2 hblank) hslash hs
          obtain ⟨ts, operand', hts, hmore⟩ :=
            hls n (s.value.1.endsOperand s.value.2) tail htail
          refine ⟨⟨s.value.1, s.value.2, start, stop⟩ :: ts, operand', ?_, ?_⟩
          · rw [List.map_cons, hts]
            rfl
          · rw [hleft, hmore] at htokens
            rw [List.cons_append, List.append_assoc, htokens]
            cases tokensFrom n operand' tail <;> rfl
        · rw [← List.cons_append, Text.brackets_append, ← hbracket, ← hbrackets,
            List.filterMap_cons]
          cases l.bracket? <;> rfl

/-- Code, then a string or a template, then anything. -/
theorem enclosed {w : Text} (ht : t.IsCode) (hw : IsEnclosed w) (hu : ShowsBrackets u brackets) :
    ShowsBrackets (t ++ (w ++ u)) (t.brackets ++ brackets) := by
  obtain ⟨hbreak, l, hl, hbracket⟩ := hw
  obtain ⟨ls, hls, rfl⟩ := hu
  have hshown : ShowsBrackets (w ++ u) (ls.filterMap Lexeme.bracket?) :=
    ⟨l :: ls, hl.append_anywhere hls, by rw [List.filterMap_cons, hbracket]⟩
  refine (code ht).append hshown ?_
  cases w with
  | nil =>
    -- nothing is no token
    obtain ⟨ts, hts, hnil⟩ := hl.tokenize
    rw [List.length_nil, Scaffold.tokenize, tokensFrom] at hnil
    obtain ⟨t, rfl, -⟩ := List.map_eq_singleton_iff.1 hts
    cases hnil
  | cons c w => exact fun d hd => hbreak d hd

end ShowsBrackets

/-! ### Strings and templates -/

/-- The text stands for itself between single quotes. -/
def Text.IsQuotable (t : Text) : Prop :=
  ∀ c ∈ t, c ≠ .scalar '\'' ∧ c ≠ .scalar '\\' ∧ c ≠ newline

instance : DecidablePred Text.IsQuotable := fun t =>
  inferInstanceAs (Decidable (∀ c ∈ t, c ≠ .scalar '\'' ∧ c ≠ .scalar '\\' ∧ c ≠ newline))

theorem Text.isQuotable_append {t u : Text} :
    (t ++ u).IsQuotable ↔ t.IsQuotable ∧ u.IsQuotable := List.forall_mem_append

theorem Text.IsQuotable.between {before t after : Text} (hbefore : before.IsQuotable)
    (ht : t.IsQuotable) (hafter : after.IsQuotable) : (before ++ t ++ after).IsQuotable :=
  Text.isQuotable_append.2 ⟨Text.isQuotable_append.2 ⟨hbefore, ht⟩, hafter⟩

theorem Text.IsQuotable.readsString {t : Text} (h : t.IsQuotable) (rest : Text) :
    ReadsString (t ++ .scalar '\'' :: rest) t rest := by
  induction t with
  | nil => exact readsString_quote rest
  | cons c t ih =>
    obtain ⟨⟨hquote, hbackslash, hnewline⟩, ht⟩ := List.forall_mem_cons.1 h
    exact (ih ht).cons hquote hbackslash hnewline

/-- A text in single quotes is a string, if nothing in it is to be escaped. -/
theorem isEnclosed_quotation {t : Text} (h : t.IsQuotable) : IsEnclosed ("'" ++ t ++ "'") := by
  have hcons : "'" ++ t ++ "'" = CodePoint.scalar '\'' :: (t ++ [.scalar '\'']) := by
    simp [Text.ofString]
  rw [hcons]
  refine ⟨isBreak_cons (by decide), (.string, t), ?_, rfl⟩
  refine lexesAs_token (by decide) (by decide) fun operand rest _ => ?_
  have hscan : Scans (scanToken operand (.scalar '\'') (t ++ [.scalar '\''] ++ rest))
      (.string, t) rest := by
    rw [List.append_assoc, scanToken, if_pos (.inl rfl)]
    exact Scans.lift (h.readsString rest _) (fun v : Text => (TokenKind.string, v)) _
  exact hscan

theorem isEnclosed_literal (t : Text) : IsEnclosed t.literal :=
  ⟨isBreak_cons (by decide), (.string, t), (isWrittenAs_literal t).lexesAs, rfl⟩

/-- The text stands for itself in a template. -/
structure Text.IsTemplatePart (t : Text) : Prop where
  /-- It does not end the template, and nothing in it is to be escaped. -/
  mark : ∀ c ∈ t, c ≠ .scalar '\x60' ∧ c ≠ .scalar '\\'
  /-- No substitution begins in it. -/
  substitution : ¬ Text.ofString "$\x7b" <:+: t

/-- A text that stands for itself, before a code point that does not make a substitution of it. -/
theorem Text.IsTemplatePart.readsTemplate {t body value : Text} {codes : List Text}
    (ht : t.IsTemplatePart) (hbody : ∀ c ∈ body.head?, c ≠ .scalar '\x7b')
    (h : ReadsTemplate body value codes) : ReadsTemplate (t ++ body) (t ++ value) codes := by
  induction t with
  | nil => exact h
  | cons c t ih =>
    obtain ⟨⟨hquote, hescape⟩, hmark⟩ := List.forall_mem_cons.1 ht.mark
    have hrest := ih ⟨hmark, fun hin => ht.substitution (hin.trans (List.suffix_cons c t).isInfix)⟩
    refine .text hquote hescape (fun hbrace => ?_) hrest
    obtain ⟨rest, hrest⟩ := hbrace
    cases t with
    | nil =>
      have hbrace : CodePoint.scalar '\x7b' :: rest = body := (List.cons.inj hrest).2
      exact hbody (.scalar '\x7b') (hbrace ▸ rfl) rfl
    | cons d t =>
      obtain ⟨rfl, hd⟩ := List.cons.inj hrest
      obtain ⟨rfl, -⟩ := List.cons.inj hd
      exact ht.substitution ⟨[], t, rfl⟩

theorem Text.IsTemplatePart.between_slashes {t : Text} (h : t.IsTemplatePart) :
    ("/" ++ t ++ "/").IsTemplatePart := by
  have hcons : "/" ++ t ++ "/" = CodePoint.scalar '/' :: (t ++ [.scalar '/']) := by
    simp [Text.ofString]
  rw [hcons]
  refine ⟨List.forall_mem_cons.2 ⟨by decide, List.forall_mem_append.2 ⟨h.mark, by decide⟩⟩, ?_⟩
  rw [List.infix_cons_iff, not_or]
  refine ⟨fun hprefix => ?_, fun hin => ?_⟩
  · obtain ⟨rest, hrest⟩ := hprefix
    exact absurd (List.cons.inj hrest).1 (by decide)
  · rcases List.infix_concat_iff.1 hin with hsuffix | hin
    · obtain ⟨front, hfront⟩ := hsuffix
      have hlast := congrArg List.getLast? hfront
      rw [List.getLast?_concat, List.getLast?_append] at hlast
      exact absurd (Option.some.inj hlast) (by decide)
    · exact h.substitution hin

/-- A template with one substitution at its end. -/
theorem isEnclosed_template {t code : Text} (ht : t.IsTemplatePart) (hcode : IsQuiet code) :
    IsEnclosed ("\x60" ++ (t ++ ("$\x7b" ++ (code ++ "\x7d\x60")))) := by
  have hreads := ht.readsTemplate (by rintro c ⟨⟩; decide) (ReadsTemplate.quiet hcode .nil)
  have htext : "\x60" ++ (t ++ ("$\x7b" ++ (code ++ "\x7d\x60"))) =
      templateOf (t ++ (Text.ofString "$\x7b" ++ (code ++ [CodePoint.scalar '\x7d']))) := by
    simp [templateOf, Text.ofString]
  rw [htext]
  exact ⟨isBreak_cons (by decide), _, hreads.isWrittenAs.lexesAs, rfl⟩

end Scaffold
