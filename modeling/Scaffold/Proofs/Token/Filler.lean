import Scaffold.Proofs.Token.Locality

/-!
# Filler between tokens

Blanks and comments may be put before any token of a source: the same tokens are read, and only the
spans from there on move (`tokenize_insert_filler`).

* `Lexes` says which tokens the last part of a source has, with the scanner of each token.  It is
  what `tokensFrom` returns (`Lexes.tokensFrom`, `lexes_of_tokensFrom`).
* The tokens of a part move with it (`Lexes.relocated`).
* A source may be cut in front of a token.  The tokens before it do not depend on what stands there,
  as long as that begins with a break (`Lexes.cut`).
-/

namespace Scaffold

open CodePoint

/-- The token, at the offsets that `f` gives for its own. -/
def Token.relocated (f : Nat → Nat) (t : Token) : Token :=
  { t with start := f t.start, stop := f t.stop }

/-- The token, `d` code points further on unless it begins before `offset`. -/
def Token.displaced (offset d : Nat) (t : Token) : Token :=
  if t.start < offset then t else t.relocated (d + ·)

/-- A token begins with `c` before `t`: neither a blank nor a comment does. -/
structure BeginsToken (c : CodePoint) (t : Text) : Prop where
  /-- No blank. -/
  blank : c.isBlank = false
  /-- No comment up to the end of the line. -/
  line : Text.startsWith (c :: t) "//" = false
  /-- No comment between marks. -/
  block : Text.startsWith (c :: t) "/*" = false

/-- A token does not begin only because a text is broken off. -/
theorem BeginsToken.break_off {c : CodePoint} {t after tail : Text}
    (h : BeginsToken c (t ++ after)) (htail : IsBreak tail) : BeginsToken c (t ++ tail) := by
  have hmark : ∀ {word : Text}, (∀ d ∈ word, ¬ Interrupts d) →
      Text.startsWith (c :: (t ++ after)) word = false →
        Text.startsWith (c :: (t ++ tail)) word = false := fun hword hnot =>
    Bool.eq_false_iff.2 fun hstarts => Bool.eq_false_iff.1 hnot
      (startsWith_of_isBreak (t := c :: t) htail hword hstarts)
  exact ⟨h.blank, hmark (by decide) h.line, hmark (by decide) h.block⟩

/-- The part of a source that begins at `start` has the tokens.  The token before it ends an operand
if `operand` holds. -/
inductive Lexes : Nat → Bool → Text → List Token → Prop
  /-- The end of the source, behind filler. -/
  | done {start : Nat} {operand : Bool} {filler : Text} (hfiller : IsFiller True filler) :
    Lexes start operand filler [Token.endOf (start + filler.length)]
  /-- Filler before what has the tokens. -/
  | skip {start : Nat} {operand : Bool} {filler t : Text} {ts : List Token}
    (hfiller : IsFiller False filler) (hrest : Lexes (start + filler.length) operand t ts) :
    Lexes start operand (filler ++ t) ts
  /-- A token and what has the tokens behind it. -/
  | token {start : Nat} {operand : Bool} {c : CodePoint} {read rest : Text} {l : Lexeme}
    {ts : List Token} (hbegins : BeginsToken c (read ++ rest))
    (hscan : Scans (scanToken operand c (read ++ rest)) l rest)
    (hrest : Lexes (start + (c :: read).length) (l.1.endsOperand l.2) rest ts) :
    Lexes start operand (c :: (read ++ rest)) (⟨l.1, l.2, start, start + (c :: read).length⟩ :: ts)

/-! ### What is read -/

theorem skipLine_of_newline {body : Text} (h : newline ∉ body) (t : Text) :
    skipLine (body ++ newline :: t) = t := by
  have hpass : ∀ c ∈ body, decide (c ≠ newline) = true := fun c hc =>
    decide_eq_true fun hn => h (hn ▸ hc)
  rw [skipLine, List.dropWhile_append_of_pos hpass, List.dropWhile_cons_of_neg (by simp)]
  rfl

theorem skipLine_of_not_mem {body : Text} (h : newline ∉ body) : skipLine body = [] := by
  have hpass : body.dropWhile (· ≠ newline) = [] :=
    List.dropWhile_eq_nil_iff.2 fun c hc => decide_eq_true fun hn => h (hn ▸ hc)
  exact congrArg (List.drop 1) hpass

theorem tokensFrom_line (n : Nat) (operand : Bool) (t : Text) :
    tokensFrom n operand ("//" ++ t) = tokensFrom n operand (skipLine t) := by
  have hstarts : Text.startsWith (.scalar '/' :: .scalar '/' :: t) "//" = true :=
    Text.startsWith_iff.2 ⟨t, rfl⟩
  change tokensFrom n operand (.scalar '/' :: .scalar '/' :: t) = _
  rw [tokensFrom, if_neg (by decide), if_pos hstarts]
  rfl

theorem tokensFrom_block (n : Nat) (operand : Bool) {body : Text}
    (h : ¬ Text.ofString "*/" <:+: body ++ "*") (t : Text) :
    tokensFrom n operand ("/*" ++ (body ++ "*/" ++ t)) = tokensFrom n operand t := by
  have hstarts : Text.startsWith (.scalar '/' :: .scalar '*' :: (body ++ "*/" ++ t)) "/*" = true :=
    Text.startsWith_iff.2 ⟨_, rfl⟩
  have hline : Text.startsWith (.scalar '/' :: .scalar '*' :: (body ++ "*/" ++ t)) "//" =
    false := by
    simp [Text.startsWith, Text.dropStart?, Text.ofString]
  have hcut : Text.cut? "*/" (body ++ "*/" ++ t) = some (body, t) := by
    rw [List.append_assoc]
    exact Text.cut?_of_first (by decide) (Bool.eq_false_iff.2 (Text.includes_eq_true.not.2 h))
  change tokensFrom n operand (.scalar '/' :: .scalar '*' :: (body ++ "*/" ++ t)) = _
  rw [tokensFrom, if_neg (by decide), if_neg (Bool.eq_false_iff.1 hline), if_pos hstarts]
  split
  · rename_i hnone
    rw [List.drop_one, List.tail_cons, hcut] at hnone
    cases hnone
  · rename_i hsome
    rw [List.drop_one, List.tail_cons, hcut] at hsome
    cases hsome
    rfl

theorem tokensFrom_filler (n : Nat) (operand : Bool) {filler : Text} (h : IsFiller False filler)
    (t : Text) : tokensFrom n operand (filler ++ t) = tokensFrom n operand t := by
  induction h with
  | nil => rfl
  | blank hc _ ih => rw [List.cons_append, tokensFrom_blank n operand hc, ih]
  | line hbody _ ih =>
    rw [List.append_assoc, tokensFrom_line, List.append_assoc, List.cons_append,
      skipLine_of_newline hbody, ih]
  | lastLine hend => exact hend.elim
  | block hbody _ ih =>
    rw [List.append_assoc, List.append_assoc, tokensFrom_block n operand hbody, ih]

/-- Filler at the end of a source has no token. -/
theorem tokensFrom_filler_end (n : Nat) (operand : Bool) {filler : Text}
    (h : IsFiller True filler) :
    tokensFrom n operand filler = .ok [Token.endOf n] := by
  induction h with
  | nil => rw [tokensFrom]
  | blank hc _ ih => rw [tokensFrom_blank n operand hc, ih]
  | line hbody _ ih => rw [tokensFrom_line, skipLine_of_newline hbody, ih]
  | lastLine _ hbody => rw [tokensFrom_line, skipLine_of_not_mem hbody, tokensFrom]
  | block hbody _ ih => rw [tokensFrom_block n operand hbody, ih]

theorem tokensFrom_token (n : Nat) {operand : Bool} {c : CodePoint} {t rest : Text} {l : Lexeme}
    (hbegins : BeginsToken c t) (hscan : Scans (scanToken operand c t) l rest) :
    tokensFrom n operand (c :: t) = (tokensFrom n (l.1.endsOperand l.2) rest).map
      (⟨l.1, l.2, n - (t.length + 1), n - rest.length⟩ :: ·) := by
  obtain ⟨s, hs, rfl, rfl⟩ := hscan
  rw [tokensFrom, if_neg (Bool.eq_false_iff.1 hbegins.blank),
    if_neg (Bool.eq_false_iff.1 hbegins.line), if_neg (Bool.eq_false_iff.1 hbegins.block), hs]

/-- The tokens of the last part of a source are read. -/
theorem Lexes.tokensFrom {start : Nat} {operand : Bool} {t : Text} {ts : List Token}
    (h : Lexes start operand t ts) : tokensFrom (start + t.length) operand t = .ok ts := by
  induction h with
  | done hfiller => exact tokensFrom_filler_end _ _ hfiller
  | skip hfiller _ ih => rw [tokensFrom_filler _ _ hfiller, List.length_append, ← Nat.add_assoc, ih]
  | @token start operand c read rest l ts hbegins hscan _ ih =>
    have hlength : start + (c :: (read ++ rest)).length =
        start + (c :: read).length + rest.length := by
      simp only [List.length_cons, List.length_append]
      omega
    have hstart : start + (c :: (read ++ rest)).length - ((read ++ rest).length + 1) = start := by
      rw [List.length_cons]
      omega
    rw [tokensFrom_token _ hbegins hscan, hstart, hlength, ih, Nat.add_sub_cancel_right]
    rfl

/-- A string that ends with the source is its only token. -/
theorem tokenize_string {quote : CodePoint} {t v : Text}
    (hquote : quote = .scalar '\'' ∨ quote = .scalar '"')
    (h : ∀ start, Scans (scanString quote start t) v []) :
    tokenize (quote :: t) =
      .ok [⟨.string, v, 0, (quote :: t).length⟩, Token.endOf (quote :: t).length] := by
  have hbegins (t : Text) : BeginsToken quote t := by
    have hblank : quote.isBlank = false := by rcases hquote with rfl | rfl <;> decide
    have hslash : quote ≠ .scalar '/' := by rcases hquote with rfl | rfl <;> decide
    exact ⟨hblank, startsWith_slash_eq_false hslash t "/", startsWith_slash_eq_false hslash t "*"⟩
  have hscan : Scans (scanToken false quote (t ++ [])) (.string, v) [] := by
    rw [scanToken, if_pos hquote, List.append_nil]
    exact (h _).lift _ _
  have hread := (@Lexes.token 0 _ _ _ _ _ _ (hbegins _) hscan (.done .nil)).tokensFrom
  rw [List.append_nil, Nat.zero_add] at hread
  exact hread

/-- What is read are the tokens of the part. -/
theorem lexes_of_tokensFrom {n start : Nat} {operand : Bool} {t : Text} {ts : List Token}
    (h : tokensFrom n operand t = .ok ts) (hn : n = start + t.length) :
    Lexes start operand t ts := by
  -- the part behind some filler begins that much later
  have hshift : ∀ {n start : Nat} (filler : Text) {t : Text}, n = start + (filler ++ t).length →
      n = start + filler.length + t.length := by
    intro n start filler t hn
    rw [hn, List.length_append, Nat.add_assoc]
  fun_induction tokensFrom n operand t generalizing start ts with
  | case1 =>
    cases h
    subst hn
    exact .done .nil
  | case2 operand c r hblank ih =>
    exact @Lexes.skip _ _ [c] _ _ (.blank hblank .nil) (ih h (hshift [c] hn))
  | case3 operand c r _ hline ih =>
    obtain ⟨u, hu⟩ := Text.startsWith_iff.1 hline
    obtain rfl : .scalar '/' :: u = r := (List.cons.inj hu).2
    rw [← hu] at hn ⊢
    have hskip : skipLine (.scalar '/' :: u) = skipLine u := rfl
    rw [hskip] at ih h
    rcases skipLine_append u with ⟨body, hbody, hsplit⟩ | ⟨hbody, hend⟩
    · have hfiller : Text.ofString "//" ++ u =
          Text.ofString "//" ++ (body ++ [newline]) ++ skipLine u := by
        conv_lhs => rw [hsplit]
        simp
      rw [hfiller] at hn ⊢
      exact .skip (.line hbody .nil) (ih h (hshift _ hn))
    · rw [hend, tokensFrom] at h
      cases h
      subst hn
      exact .done (.lastLine trivial hbody)
  | case4 => cases h
  | case5 operand c r _ _ hblock body rest hcut ih =>
    obtain ⟨u, hu⟩ := Text.startsWith_iff.1 hblock
    obtain rfl : .scalar '*' :: u = r := (List.cons.inj hu).2
    rw [List.drop_one, List.tail_cons] at hcut
    have hfiller : Text.ofString "/*" ++ u = Text.ofString "/*" ++
        (body ++ Text.ofString "*/" ++ []) ++ rest := by
      rw [Text.eq_of_cut? hcut]
      simp
    rw [← hu, hfiller] at hn ⊢
    exact .skip (.block (Text.not_infix_of_cut? (by decide) hcut) .nil) (ih h (hshift _ hn))
  | case6 => cases h
  | case7 operand c r hblank hline hblock s hs _ kind value hvalue ih =>
    obtain ⟨ts, hts, rfl⟩ := Except.map_eq_ok_iff.1 h
    have hscan : Scans (scanToken operand c r) (kind, value) s.rest := ⟨s, hs, hvalue, rfl⟩
    obtain ⟨read, hread, -⟩ := scanToken_local hscan
    have hbegins : BeginsToken c r :=
      ⟨by simpa using hblank, by simpa using hline, by simpa using hblock⟩
    generalize s.rest = rest at *
    subst hread
    have hrest := ih hts (hshift (c :: read) hn)
    have hstart : n - ((read ++ rest).length + 1) = start := by
      rw [hn, List.length_cons]
      omega
    have hstop : n - rest.length = start + (c :: read).length := by
      rw [hshift (c :: read) hn]
      omega
    rw [hstart, hstop]
    exact .token (l := (kind, value)) hbegins hscan hrest

/-! ### Moving and cutting -/

namespace Lexes

variable {start : Nat} {operand : Bool} {t : Text} {ts : List Token}

/-- The tokens of a part move with it. -/
theorem relocated (h : Lexes start operand t ts) (d : Nat) :
    Lexes (d + start) operand t (ts.map (Token.relocated (d + ·))) := by
  induction h with
  | @done start operand filler hfiller =>
    have := @Lexes.done (d + start) operand filler hfiller
    rw [Nat.add_assoc] at this
    exact this
  | skip hfiller _ ih => exact .skip hfiller (Nat.add_assoc .. ▸ ih)
  | @token start operand c read rest l ts hbegins hscan _ ih =>
    rw [← Nat.add_assoc] at ih
    have := Lexes.token hbegins hscan ih
    rw [Nat.add_assoc] at this
    exact this

/-- No token of a part begins before it. -/
theorem start_le (h : Lexes start operand t ts) : ∀ u ∈ ts, start ≤ u.start := by
  induction h with
  | done => simp [Token.endOf]
  | skip _ _ ih => exact fun u hu => Nat.le_of_add_right_le (ih u hu)
  | token _ _ _ ih =>
    exact List.forall_mem_cons.2 ⟨Nat.le_refl _, fun u hu => Nat.le_of_add_right_le (ih u hu)⟩

/-- **A source is cut in front of a token.**  The tokens before it are read whatever stands behind
the cut, if that begins with a break. -/
theorem cut {us vs : List Token} {u : Token} (h : Lexes start operand t (us ++ u :: vs))
    (hu : u.kind ≠ .eof) : ∃ before after operand', t = before ++ after ∧
      u.start = start + before.length ∧ (∀ w ∈ us, w.start < u.start) ∧
      Lexes u.start operand' after (u :: vs) ∧
      ∀ ⦃tail : Text⦄ ⦃ws : List Token⦄, IsBreak tail → Lexes u.start operand' tail ws →
        Lexes start operand (before ++ tail) (us ++ ws) := by
  generalize hts : us ++ u :: vs = ts at h
  induction h generalizing us with
  | done =>
    have hend : u = Token.endOf _ := List.mem_singleton.1 (hts ▸ List.mem_append_right us (by simp))
    exact absurd (congrArg Token.kind hend) hu
  | @skip start operand filler t ts hfiller hrest ih =>
    obtain ⟨before, after, operand', rfl, hstart, hbefore, hafter, hcut⟩ := ih hts
    refine ⟨filler ++ before, after, operand', ?_, ?_, hbefore, hafter, ?_⟩
    · exact (List.append_assoc _ _ _).symm
    · rw [hstart, List.length_append, Nat.add_assoc]
    · intro tail ws htail hws
      rw [List.append_assoc]
      exact .skip hfiller (hcut htail hws)
  | @token start operand c read rest l ts hbegins hscan hrest ih =>
    cases us with
    | nil =>
      obtain ⟨rfl, rfl⟩ := List.cons.inj hts
      exact ⟨[], _, operand, rfl, rfl, nofun, .token hbegins hscan hrest, fun _ _ _ hws => hws⟩
    | cons w us =>
      obtain ⟨rfl, hts'⟩ := List.cons.inj hts
      obtain ⟨before, after, operand', rfl, hstart, hbefore, hafter, hcut⟩ := ih hts'
      obtain ⟨read', hread, hlocal⟩ := scanToken_local hscan
      obtain rfl : read' = read := (List.append_cancel_right hread).symm
      have hpos : start < u.start := by
        rw [hstart, List.length_cons]
        omega
      refine ⟨c :: (read' ++ before), after, operand', ?_, ?_, ?_, hafter, ?_⟩
      · simp
      · rw [hstart, List.length_cons, List.length_cons, List.length_append]
        omega
      · exact List.forall_mem_cons.2 ⟨hpos, hbefore⟩
      · intro tail ws htail hws
        rw [List.cons_append, List.append_assoc]
        rw [← List.append_assoc] at hbegins
        refine .token ?_ (hlocal rfl htail) (hcut htail hws)
        rw [← List.append_assoc]
        exact hbegins.break_off htail

end Lexes

/-- **Filler is invisible.**  Where filler that begins with a blank is put before a token, the same
tokens are read; those before it stay where they are, and the others move. -/
theorem tokenize_insert_filler {source filler : Text} {ts : List Token} {t : Token} {c : CodePoint}
    (h : tokenize source = .ok ts) (ht : t ∈ ts) (hkind : t.kind ≠ .eof) (hc : c.isBlank = true)
    (hfiller : IsFiller False filler) :
    tokenize (source.take t.start ++ (c :: filler ++ source.drop t.start)) =
      .ok (ts.map (Token.displaced t.start (filler.length + 1))) := by
  obtain ⟨us, vs, rfl⟩ := List.append_of_mem ht
  have hlexes := lexes_of_tokensFrom h (Nat.zero_add _).symm
  obtain ⟨before, after, operand, rfl, hstart, hbefore, hafter, hcut⟩ := hlexes.cut hkind
  rw [Nat.zero_add] at hstart
  -- behind the filler the tokens are read as before, further on
  have htail : Lexes t.start operand (c :: filler ++ after)
      ((t :: vs).map (Token.relocated (filler.length + 1 + ·))) := by
    refine .skip (.blank hc hfiller) ?_
    rw [Nat.add_comm]
    exact hafter.relocated _
  have hread := (hcut (isBreak_cons (interrupts_of_isBlank hc)) htail).tokensFrom
  rw [Nat.zero_add] at hread
  -- those before the filler begin before it, and the others do not
  have hstay : us.map (Token.displaced t.start (filler.length + 1)) = us :=
    (List.map_congr_left fun u hu => if_pos (hbefore u hu)).trans (List.map_id us)
  have hmove : (t :: vs).map (Token.displaced t.start (filler.length + 1)) =
      (t :: vs).map (Token.relocated (filler.length + 1 + ·)) :=
    List.map_congr_left fun u hu => if_neg (Nat.not_lt.2 (hafter.start_le u hu))
  rw [List.map_append, hstay, hmove, hstart, List.take_left, List.drop_left]
  exact hread

/-- A slash that divides still divides behind comments. -/
theorem tokenize_insert_filler_slash :
    tokenize ((Text.ofString "rate / 2").take 5 ++
      (newline :: Text.ofString "/* per */// person\n" ++ (Text.ofString "rate / 2").drop 5)) =
      .ok [⟨.ident, "rate", 0, 4⟩, ⟨.punct, "/", 25, 26⟩, ⟨.number, "2", 27, 28⟩,
        Token.endOf 28] := by
  have hfiller : IsFiller False (Text.ofString "/* per */// person\n") :=
    @IsFiller.block _ " per " _ (by decide) (@IsFiller.line _ " person" _ (by decide) .nil)
  have htokens : tokenize "rate / 2" = .ok [⟨.ident, "rate", 0, 4⟩, ⟨.punct, "/", 5, 6⟩,
      ⟨.number, "2", 7, 8⟩, Token.endOf 8] := Except.eq_ok_of_toOption (by decide +kernel)
  have hblank : newline.isBlank = true := by decide
  exact tokenize_insert_filler (t := ⟨.punct, "/", 5, 6⟩) htokens (by decide) (by decide) hblank
    hfiller

end Scaffold
