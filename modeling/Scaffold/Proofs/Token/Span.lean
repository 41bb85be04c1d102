import Scaffold.Proofs.Outcome
import Scaffold.Proofs.Text.Occurrence
import Scaffold.Token.Lexer

/-!
# What the tokens leave of a source

No code point of a source is lost and none is read twice: between the spans of its tokens there are
only blanks and whole comments (`IsFiller`), and a span holds what its token stands for
(`TokenKind.Writes`).

* Each scanner splits its text in two: what it reads, and the rest that it returns
  (`scanString_append`, `scanTemplate_append`, `scanNumber_append_rest`, `scanToken_writes`).
* `Covers` lists the tokens of the last part of a source together with the texts that they are
  written as.  What `tokensFrom` returns covers its text (`covers_of_tokensFrom`).
* `Accounts` says the same of the offsets, for a whole source (`tokenize_accounts`).
-/

namespace Scaffold

open CodePoint

/-- Blanks and whole comments, one after the other.  A line comment ends at a line feed, or with the
text where `atEnd` holds; a block comment ends at the first mark that can close it. -/
inductive IsFiller (atEnd : Prop) : Text → Prop
  /-- Nothing. -/
  | nil : IsFiller atEnd []
  /-- A blank. -/
  | blank {c : CodePoint} {t : Text} (hc : c.isBlank = true) (ht : IsFiller atEnd t) :
    IsFiller atEnd (c :: t)
  /-- A comment up to a line feed. -/
  | line {body t : Text} (hbody : newline ∉ body) (ht : IsFiller atEnd t) :
    IsFiller atEnd ("//" ++ (body ++ newline :: t))
  /-- A comment up to the end of the text. -/
  | lastLine {body : Text} (h : atEnd) (hbody : newline ∉ body) : IsFiller atEnd ("//" ++ body)
  /-- A comment between marks. -/
  | block {body t : Text} (hbody : ¬ Text.ofString "*/" <:+: body ++ "*") (ht : IsFiller atEnd t) :
    IsFiller atEnd ("/*" ++ (body ++ "*/" ++ t))

/-- A token of this kind and value can be written as the text: a string or template between two
quotes of one sort, any other token as its value. -/
inductive TokenKind.Writes : TokenKind → Text → Text → Prop
  /-- A name, number, mark or regular expression. -/
  | plain {kind : TokenKind} {written : Text}
    (hkind : kind ∈ [TokenKind.ident, .number, .punct, .regex]) (hne : written ≠ []) :
    Writes kind written written
  /-- A string. -/
  | string {quote : CodePoint} (value body : Text) (hquote : quote ∈ Text.ofString "'\"") :
    Writes .string value (quote :: (body ++ [quote]))
  /-- A template. -/
  | template (interpolated : Bool) (value body : Text) :
    Writes (.template interpolated) value (.scalar '\x60' :: (body ++ [.scalar '\x60']))

namespace TokenKind.Writes

variable {kind : TokenKind} {value written : Text}

theorem ne_nil (h : kind.Writes value written) : written ≠ [] := by
  cases h with
  | plain _ hne => exact hne
  | string => exact List.cons_ne_nil _ _
  | template => exact List.cons_ne_nil _ _

theorem kind_ne_eof (h : kind.Writes value written) : kind ≠ .eof := by
  rintro rfl
  cases h with
  | plain hkind => simp at hkind

end TokenKind.Writes

/-! ### Literals -/

theorem Escape.read_suffix {t v rest : Text} (h : Escape.read t = .ok (v, rest)) : rest <:+ t := by
  unfold Escape.read at h
  split at h
  · cases h
  · rename_i t
    split at h
    · cases h
    · rename_i digits r hcut
      rw [rest_of_map h, Text.eq_of_cut? hcut]
      exact ((List.suffix_append _ r).trans (List.suffix_cons _ _)).trans (List.suffix_cons _ _)
  · rw [rest_of_map h]
    exact (List.drop_suffix 4 _).trans (List.suffix_cons _ _)
  · rw [rest_of_map h]
    exact (List.drop_suffix 2 _).trans (List.suffix_cons _ _)
  · cases h
    exact List.suffix_cons _ _
  · cases h
    exact List.suffix_cons _ _

theorem scanString_append {quote : CodePoint} {start : Nat} {t : Text} {s : Scanned Text t}
    (h : scanString quote start t = .ok s) : ∃ body, t = body ++ quote :: s.rest := by
  fun_induction scanString quote start t with
  | case1 => cases h
  | case2 => cases h; exact ⟨[], rfl⟩
  | case3 => cases h
  | case4 t v r hread hr _ ih =>
    obtain ⟨s, hs, rfl⟩ := Except.map_eq_ok_iff.1 h
    obtain ⟨body, hbody⟩ := ih hs
    obtain ⟨escaped, rfl⟩ := Escape.read_suffix hread
    exact ⟨.scalar '\\' :: (escaped ++ body), by simp [hbody]⟩
  | case5 => cases h
  | case6 c t _ _ _ ih =>
    obtain ⟨s, hs, rfl⟩ := Except.map_eq_ok_iff.1 h
    obtain ⟨body, hbody⟩ := ih hs
    exact ⟨c :: body, congrArg (c :: ·) hbody⟩

mutual

/-- A template ends at its closing backquote. -/
theorem scanTemplate_append {start : Nat} {t : Text} {s : Scanned (Text × Bool) t}
    (h : scanTemplate start t = .ok s) : ∃ body, t = body ++ .scalar '\x60' :: s.rest := by
  rw [scanTemplate.eq_def] at h
  cases t with
  | nil => cases h
  | cons c t =>
    dsimp only at h
    split_ifs at h with hquote hescape hdollar
    · cases h
      exact ⟨[], by rw [hquote]; rfl⟩
    · split at h
      · cases h
      · rename_i v r hread
        obtain ⟨s, hs, rfl⟩ := Except.map_eq_ok_iff.1 h
        have hshorter := Escape.length_read hread
        obtain ⟨escaped, hescaped⟩ := Escape.read_suffix hread
        obtain ⟨body, hbody⟩ := scanTemplate_append hs
        exact ⟨c :: (escaped ++ body), by simp [← hescaped, hbody]⟩
    · split at h
      · rename_i t
        split at h
        · cases h
        · rename_i inner hinner
          have hshorter := inner.shorter
          obtain ⟨s, hs, rfl⟩ := Except.map_eq_ok_iff.1 h
          obtain ⟨skipped, hskipped⟩ := skipSubstitution_suffix hinner
          obtain ⟨body, hbody⟩ := scanTemplate_append hs
          exact ⟨c :: .scalar '\x7b' :: (skipped ++ body), by simp [← hskipped, hbody]⟩
      · obtain ⟨s, hs, rfl⟩ := Except.map_eq_ok_iff.1 h
        obtain ⟨body, hbody⟩ := scanTemplate_append hs
        exact ⟨c :: body, congrArg (c :: ·) hbody⟩
    · obtain ⟨s, hs, rfl⟩ := Except.map_eq_ok_iff.1 h
      obtain ⟨body, hbody⟩ := scanTemplate_append hs
      exact ⟨c :: body, congrArg (c :: ·) hbody⟩
termination_by t.length
decreasing_by all_goals subst_vars; simp only [List.length_cons]; omega

theorem skipSubstitution_suffix {depth : Nat} {t : Text} {s : Scanned Unit t}
    (h : skipSubstitution depth t = .ok s) : s.rest <:+ t := by
  -- a step reads a beginning of the text, and skips the rest of the substitution behind it
  rw [skipSubstitution.eq_def] at h
  cases t with
  | nil => cases h
  | cons c t =>
    dsimp only at h
    split_ifs at h with hstring htemplate hopen hclose
    · split at h
      · cases h
      · rename_i inner hinner
        have hshorter := inner.shorter
        obtain ⟨s, hs, rfl⟩ := Except.map_eq_ok_iff.1 h
        obtain ⟨body, hbody⟩ := scanString_append hinner
        have hinner : c :: inner.rest <:+ t := ⟨body, hbody.symm⟩
        exact (((skipSubstitution_suffix hs).trans (List.suffix_cons c _)).trans hinner).trans
          (List.suffix_cons c t)
    · split at h
      · cases h
      · rename_i inner hinner
        have hshorter := inner.shorter
        obtain ⟨s, hs, rfl⟩ := Except.map_eq_ok_iff.1 h
        obtain ⟨body, hbody⟩ := scanTemplate_append hinner
        have hinner : .scalar '\x60' :: inner.rest <:+ t := ⟨body, hbody.symm⟩
        exact (((skipSubstitution_suffix hs).trans (List.suffix_cons _ _)).trans hinner).trans
          (List.suffix_cons c t)
    · obtain ⟨s, hs, rfl⟩ := Except.map_eq_ok_iff.1 h
      exact (skipSubstitution_suffix hs).trans (List.suffix_cons c t)
    · split at h
      · cases h
        exact List.suffix_cons c t
      · obtain ⟨s, hs, rfl⟩ := Except.map_eq_ok_iff.1 h
        exact (skipSubstitution_suffix hs).trans (List.suffix_cons c t)
    · obtain ⟨s, hs, rfl⟩ := Except.map_eq_ok_iff.1 h
      exact (skipSubstitution_suffix hs).trans (List.suffix_cons c t)
termination_by t.length
decreasing_by all_goals subst_vars; simp only [List.length_cons]; omega

end

theorem skipRegex_suffix {start : Nat} {inClass : Bool} {t rest : Text}
    (h : skipRegex start inClass t = .ok rest) : rest <:+ t := by
  fun_induction skipRegex start inClass t with
  | case1 => cases h
  | case2 => cases h
  | case3 _ _ _ ih => exact ((ih h).trans (List.suffix_cons _ _)).trans (List.suffix_cons _ _)
  | case4 => cases h
  | case7 =>
    cases h
    exact (List.dropWhile_suffix _).trans (List.suffix_cons _ _)
  | case5 _ _ _ _ _ ih => exact (ih h).trans (List.suffix_cons _ _)
  | case6 _ _ _ _ _ _ ih => exact (ih h).trans (List.suffix_cons _ _)
  | case8 _ _ _ _ _ _ _ _ _ ih => exact (ih h).trans (List.suffix_cons _ _)

theorem consumed_append {t rest : Text} (h : rest <:+ t) : consumed t rest ++ rest = t := by
  obtain ⟨read, rfl⟩ := h
  simp [consumed]

/-! ### Names, numbers and marks -/

theorem spanWhile_append_rest (p : CodePoint → Bool) (t : Text) :
    (Text.spanWhile p t).1 ++ (Text.spanWhile p t).2 = t :=
  List.takeWhile_append_dropWhile

theorem scanExponent_append_rest (t : Text) : (scanExponent t).1 ++ (scanExponent t).2 = t := by
  unfold scanExponent
  split
  · rfl
  · rename_i e t
    split
    · split
      rename_i sign t' hsign
      have hsigned : sign ++ t' = t := by
        split at hsign <;> cases hsign <;> rfl
      dsimp only
      split
      · rfl
      · rw [List.cons_append, List.cons_append, List.append_assoc, spanWhile_append_rest, hsigned]
    · rfl

theorem scanFraction_append_rest (t : Text) : (scanFraction t).1 ++ (scanFraction t).2 = t := by
  unfold scanFraction
  split
  · exact congrArg (_ :: ·) (spanWhile_append_rest isNumberPart _)
  · rfl

theorem scanLargeMark_append_rest (t : Text) :
    (scanLargeMark t).1 ++ (scanLargeMark t).2 = t := by
  unfold scanLargeMark
  split <;> rfl

theorem scanDecimal_append_rest (c : CodePoint) (t : Text) :
    (scanDecimal c t).1 ++ (scanDecimal c t).2 = t := by
  have hfraction : ∀ t : Text,
      (if c = .scalar '.' then ([], t) else scanFraction t).1 ++
        (if c = .scalar '.' then ([], t) else scanFraction t).2 = t := fun t => by
    split
    · rfl
    · exact scanFraction_append_rest t
  dsimp only [scanDecimal]
  rw [List.append_assoc, List.append_assoc, List.append_assoc, scanLargeMark_append_rest,
    scanExponent_append_rest, hfraction, spanWhile_append_rest]

theorem scanMarked?_append_rest {mark : Char} {t read rest : Text}
    (h : scanMarked? mark t = some (read, rest)) : read ++ rest = t := by
  unfold scanMarked? at h
  split at h
  · split at h
    · dsimp only at h
      split at h
      · cases h
      · cases h
        rw [List.cons_append, List.cons_append, List.append_assoc, scanLargeMark_append_rest,
          spanWhile_append_rest]
    · cases h
  · cases h

theorem scanNumber_append_rest (c : CodePoint) (t : Text) :
    (scanNumber c t).1 ++ (scanNumber c t).2 = t := by
  unfold scanNumber
  dsimp only
  split
  · cases hx : scanMarked? 'x' t with
    | some p => exact scanMarked?_append_rest hx
    | none =>
      cases hb : scanMarked? 'b' t with
      | some p => exact scanMarked?_append_rest hb
      | none =>
        cases ho : scanMarked? 'o' t with
        | some p => exact scanMarked?_append_rest ho
        | none => exact scanDecimal_append_rest c t
  · exact scanDecimal_append_rest c t

/-- The mark at the beginning of a text is a beginning of it. -/
theorem scanPunct_prefix (c : CodePoint) (t : Text) : scanPunct c t <+: c :: t := by
  unfold scanPunct
  cases hfound : longPuncts.find? (Text.startsWith (c :: t)) with
  | none => exact ⟨t, rfl⟩
  | some word => exact Text.startsWith_iff.1 (List.find?_some hfound)

theorem scanPunct_ne_nil (c : CodePoint) (t : Text) : scanPunct c t ≠ [] := by
  unfold scanPunct
  cases hfound : longPuncts.find? (Text.startsWith (c :: t)) with
  | none => exact List.cons_ne_nil c []
  | some word =>
    have hlong : ∀ w ∈ longPuncts, w ≠ [] := by decide
    exact hlong word (List.mem_of_find?_eq_some hfound)

theorem scanPunct_append_drop (c : CodePoint) (t : Text) :
    scanPunct c t ++ t.drop ((scanPunct c t).length - 1) = c :: t := by
  obtain ⟨rest, hrest⟩ := scanPunct_prefix c t
  obtain ⟨d, word, hword⟩ := List.exists_cons_of_ne_nil (scanPunct_ne_nil c t)
  rw [hword, List.cons_append, List.cons.injEq] at hrest
  rw [hword, ← hrest.2, hrest.1]
  simp

/-! ### One token -/

/-- A token is written at the beginning of the text that it is read from. -/
theorem scanToken_writes {operand : Bool} {c : CodePoint} {t : Text} {s : Scanned Lexeme (c :: t)}
    (h : scanToken operand c t = .ok s) :
    ∃ written, written ++ s.rest = c :: t ∧ s.value.1.Writes s.value.2 written := by
  unfold scanToken at h
  split_ifs at h with hstring htemplate hregex hnumber hident
  · obtain ⟨s, hs, rfl⟩ := Except.map_eq_ok_iff.1 h
    obtain ⟨body, hbody⟩ := scanString_append hs
    exact ⟨c :: (body ++ [c]), by simp [← hbody],
      .string s.value body (by simpa [Text.ofString] using hstring)⟩
  · obtain ⟨s, hs, rfl⟩ := Except.map_eq_ok_iff.1 h
    obtain ⟨body, hbody⟩ := scanTemplate_append hs
    refine ⟨.scalar '\x60' :: (body ++ [.scalar '\x60']), by simp [htemplate, ← hbody], ?_⟩
    exact TokenKind.Writes.template s.value.2 s.value.1 body
  · split at h
    · cases h
    · rename_i rest hrest
      cases h
      have hread := consumed_append ((skipRegex_suffix hrest).trans (List.suffix_cons c t))
      have hne : consumed (c :: t) rest ≠ [] := fun hnil => by
        have hshorter := length_skipRegex hrest
        rw [hnil, List.nil_append] at hread
        rw [hread, List.length_cons] at hshorter
        omega
      exact ⟨consumed (c :: t) rest, hread, .plain (by simp) hne⟩
  · cases h
    exact ⟨c :: (scanNumber c t).1, congrArg (c :: ·) (scanNumber_append_rest c t),
      .plain (by simp) (List.cons_ne_nil _ _)⟩
  · cases h
    exact ⟨c :: (scanIdent t).1, congrArg (c :: ·) (spanWhile_append_rest isIdentPart t),
      .plain (by simp) (List.cons_ne_nil _ _)⟩
  · cases h
    exact ⟨scanPunct c t, scanPunct_append_drop c t, .plain (by simp) (scanPunct_ne_nil c t)⟩

/-! ### Blanks and comments -/

/-- The rest of a line and the text behind it; the last line has no line feed. -/
theorem skipLine_append (t : Text) :
    (∃ body, newline ∉ body ∧ t = body ++ newline :: skipLine t) ∨
      newline ∉ t ∧ skipLine t = [] := by
  have hbody : newline ∉ t.takeWhile (· ≠ newline) := fun h => by
    simpa using List.all_eq_true.1 List.all_takeWhile _ h
  have hsplit : t.takeWhile (· ≠ newline) ++ t.dropWhile (· ≠ newline) = t :=
    List.takeWhile_append_dropWhile
  cases hrest : t.dropWhile (· ≠ newline) with
  | nil =>
    rw [hrest, List.append_nil] at hsplit
    exact .inr ⟨hsplit ▸ hbody, congrArg (List.drop 1) hrest⟩
  | cons c rest =>
    have hc : c = newline := by
      have := List.head?_dropWhile_not (fun d : CodePoint => decide (d ≠ newline)) t
      rw [hrest] at this
      simpa using this
    have hskip : skipLine t = rest := congrArg (List.drop 1) hrest
    rw [hrest, hc] at hsplit
    exact .inl ⟨_, hbody, by rw [hskip, hsplit]⟩

/-! ### The whole source -/

/-- The tokens of the last part `t` of a source of `n` code points, in the order in which they are
written, with filler before each of them and before the end. -/
inductive Covers (n : Nat) : Text → List Token → Prop
  /-- Filler and the end of the source. -/
  | done {filler : Text} (hfiller : IsFiller True filler) : Covers n filler [Token.endOf n]
  /-- Filler, a token and what covers the text behind it. -/
  | token {filler written rest : Text} {kind : TokenKind} {value : Text} {ts : List Token}
    (hfiller : IsFiller False filler) (hwrites : kind.Writes value written)
    (hrest : Covers n rest ts) :
    Covers n (filler ++ (written ++ rest))
      (⟨kind, value, n - (written ++ rest).length, n - rest.length⟩ :: ts)

/-- Filler may stand before what is covered. -/
theorem Covers.skip {n : Nat} {t : Text} {ts : List Token} (h : Covers n t ts) (skipped : Text)
    (hskip : ∀ (atEnd : Prop) (u : Text), IsFiller atEnd u → IsFiller atEnd (skipped ++ u)) :
    Covers n (skipped ++ t) ts := by
  cases h with
  | done hfiller => exact .done (hskip True _ hfiller)
  | token hfiller hwrites hrest =>
    rw [← List.append_assoc]
    exact .token (hskip False _ hfiller) hwrites hrest

/-- The tokens that are read of a text cover it. -/
theorem covers_of_tokensFrom {n : Nat} {operand : Bool} {t : Text} {ts : List Token}
    (h : tokensFrom n operand t = .ok ts) : Covers n t ts := by
  fun_induction tokensFrom n operand t generalizing ts with
  | case1 =>
    cases h
    exact .done .nil
  | case2 operand c r hblank ih =>
    exact (ih h).skip [c] fun _ _ ht => .blank hblank ht
  | case3 operand c r _ hline ih =>
    obtain ⟨u, hu⟩ := Text.startsWith_iff.1 hline
    have hr : r = .scalar '/' :: u := (List.cons.inj hu).2.symm
    rcases skipLine_append u with ⟨body, hbody, hsplit⟩ | ⟨hbody, hend⟩
    · have hskip : skipLine r = skipLine u := by rw [hr]; rfl
      rw [← hu, hsplit, ← hskip]
      have := (ih h).skip ("//" ++ (body ++ [newline])) fun _ _ ht => by
        simpa using IsFiller.line hbody ht
      simpa using this
    · have hskip : skipLine r = [] := by rw [hr]; exact hend
      rw [hskip, tokensFrom] at h
      cases h
      rw [← hu]
      exact .done (.lastLine trivial hbody)
  | case4 => cases h
  | case5 operand c r _ _ hblock body rest hcut ih =>
    obtain ⟨u, hu⟩ := Text.startsWith_iff.1 hblock
    have hr : r = .scalar '*' :: u := (List.cons.inj hu).2.symm
    rw [hr, List.drop_one, List.tail_cons] at hcut
    have hbody := Text.not_infix_of_cut? (by decide) hcut
    rw [← hu, Text.eq_of_cut? hcut]
    have := (ih h).skip ("/*" ++ (body ++ "*/")) fun _ _ ht => by
      simpa using IsFiller.block hbody ht
    simpa using this
  | case6 => cases h
  | case7 operand c r _ _ _ s hs _ kind value hvalue ih =>
    obtain ⟨ts, hts, rfl⟩ := Except.map_eq_ok_iff.1 h
    obtain ⟨written, hwritten, hwrites⟩ := scanToken_writes hs
    rw [hvalue] at hwrites
    have := Covers.token .nil hwrites (ih hts)
    rw [List.nil_append, hwritten] at this
    exact this

/-! ### Offsets -/

/-- The spans of the tokens and what stands between them make up the source from offset `start`
on. -/
structure Accounts (source : Text) (start : Nat) (tokens : List Token) : Prop where
  /-- No span is empty, and all are inside the text. -/
  spans : ∀ t ∈ tokens, start ≤ t.start ∧ t.start < t.stop ∧ t.stop ≤ source.length
  /-- A span ends before the next ones begin. -/
  ordered : tokens.Pairwise fun t u => t.stop ≤ u.start
  /-- A span holds what its token is written as. -/
  written : ∀ t ∈ tokens, t.kind.Writes t.value (source.slice t.start t.stop)
  /-- There is filler before the first span, between two neighbours and behind the last. -/
  fillers : ∀ gap ∈ (start :: tokens.map Token.stop).zip
      (tokens.map Token.start ++ [source.length]),
    IsFiller (gap.2 = source.length) (source.slice gap.1 gap.2)

theorem IsFiller.mono {p q : Prop} {t : Text} (h : IsFiller p t) (hpq : p → q) : IsFiller q t := by
  induction h with
  | nil => exact .nil
  | blank hc _ ih => exact .blank hc ih
  | line hbody _ ih => exact .line hbody ih
  | lastLine hend hbody => exact .lastLine (hpq hend) hbody
  | block hbody _ ih => exact .block hbody ih

namespace Accounts

variable {source : Text} {start : Nat} {token : Token} {ts : List Token}

theorem nil (h : IsFiller True (source.slice start source.length)) : Accounts source start [] where
  spans := nofun
  ordered := .nil
  written := nofun
  fillers := by
    rintro gap hgap
    obtain rfl : gap = (start, source.length) := by simpa using hgap
    exact h.mono fun _ => rfl

/-- A token, with filler before it, in front of what accounts for the text behind it. -/
theorem cons (h : Accounts source token.stop ts) (hstart : start ≤ token.start)
    (hspan : token.start < token.stop) (hstop : token.stop ≤ source.length)
    (hwritten : token.kind.Writes token.value (source.slice token.start token.stop))
    (hfiller : IsFiller False (source.slice start token.start)) :
    Accounts source start (token :: ts) where
  spans := by
    refine List.forall_mem_cons.2 ⟨⟨hstart, hspan, hstop⟩, fun t ht => ?_⟩
    obtain ⟨hbehind, hne, hinside⟩ := h.spans t ht
    exact ⟨by omega, hne, hinside⟩
  ordered := List.pairwise_cons.2 ⟨fun t ht => (h.spans t ht).1, h.ordered⟩
  written := List.forall_mem_cons.2 ⟨hwritten, h.written⟩
  fillers := by
    rw [List.map_cons, List.map_cons, List.cons_append, List.zip_cons_cons]
    exact List.forall_mem_cons.2 ⟨hfiller.mono False.elim, h.fillers⟩

end Accounts

theorem slice_append (before t rest : Text) :
    (before ++ (t ++ rest)).slice before.length (before.length + t.length) = t := by
  simp [Text.slice]

/-- What covers the last part of a source accounts for it. -/
theorem Covers.accounts {source t : Text} {ts : List Token} (h : Covers source.length t ts)
    (before : Text) (hsource : before ++ t = source) :
    ∃ tokens, ts = tokens ++ [Token.endOf source.length] ∧
      Accounts source before.length tokens := by
  induction h generalizing before with
  | @done filler hfiller =>
    have hslice := slice_append before filler []
    rw [List.append_nil, ← List.length_append, hsource] at hslice
    exact ⟨[], rfl, .nil (hslice.symm ▸ hfiller)⟩
  | @token filler written rest kind value ts hfiller hwrites _ ih =>
    obtain ⟨tokens, rfl, haccounts⟩ := ih (before ++ filler ++ written) (by simpa using hsource)
    -- the offsets of the token, counted from the beginning of the source
    have hlength : before.length + filler.length + written.length + rest.length =
        source.length := by
      simp [← hsource, Nat.add_assoc]
    have hstart : source.length - (written ++ rest).length = before.length + filler.length := by
      rw [List.length_append]
      omega
    have hstop : source.length - rest.length =
        before.length + filler.length + written.length := by
      omega
    have hpos := List.length_pos_iff.2 hwrites.ne_nil
    have hgap := slice_append before filler (written ++ rest)
    have hspan := slice_append (before ++ filler) written rest
    rw [hsource] at hgap
    rw [List.append_assoc, hsource, List.length_append] at hspan
    rw [hstart, hstop]
    rw [List.length_append, List.length_append] at haccounts
    refine ⟨_, rfl, haccounts.cons ?_ ?_ ?_ ?_ ?_⟩
    · exact Nat.le_add_right _ _
    · exact Nat.lt_add_of_pos_right hpos
    · exact hlength ▸ Nat.le_add_right _ _
    · exact hspan.symm ▸ hwrites
    · exact hgap.symm ▸ hfiller

/-- A source has tokens that account for all of it, with the end of the source behind them and
nowhere else, or an error. -/
theorem tokenize_accounts (source : Text) :
    (∃ tokens, tokenize source = .ok (tokens ++ [Token.endOf source.length]) ∧
      Accounts source 0 tokens ∧ ∀ t ∈ tokens, t.kind ≠ .eof) ∨
    ∃ e, tokenize source = .error e := by
  cases h : tokenize source with
  | error e => exact .inr ⟨e, rfl⟩
  | ok ts =>
    obtain ⟨tokens, rfl, haccounts⟩ := (covers_of_tokensFrom h).accounts [] rfl
    exact .inl ⟨tokens, rfl, haccounts, fun t ht => (haccounts.written t ht).kind_ne_eof⟩

end Scaffold
