import Scaffold.Proofs.Schema.Name

/-!
# Faults of literals

A source without a usable declaration is refused with an error that is about the declaration.  The
exceptions are faults of literals (`LiteralFault`): an escape sequence with a number that does not
fit into 32 bits, a number literal that is no numeral, and a name with a surrogate.  There are no
others (`literalFault_of_extract`).
-/

namespace Scaffold

/-- A fault of a literal in a source, which is passed on as it is. -/
inductive LiteralFault (factory source : Text) : Prop where
  /-- An escape sequence with too large a number. -/
  | escape (offset : Nat) (h : tokenize source = .error ⟨.hugeEscape, offset⟩)
  /-- A number literal that is none. -/
  | number (ts : List Token) (e : NumeralError) (h : tokenize source = .ok ts)
      (hrefused : RefusesNumber ts e)
  /-- A name with a surrogate. -/
  | surrogate (d : Declaration) (h : findDeclaration factory source = .ok d)
      (hname : ¬ d.name.IsScalar)

variable {factory source : Text} {ts : List Token}

theorem refusesNumber_of_readLeadingChain {e : NumeralError}
    (h : Expr.readLeadingChain source ts = .error e) : RefusesNumber ts e := by
  cases ts with
  | nil => cases h
  | cons t rest =>
    rw [Expr.readLeadingChain] at h
    split at h
    · have hwithin := Expr.within_readChain source t rest
      rw [Except.map_eq_error_iff.1 h] at hwithin
      exact hwithin.mono (List.subset_cons_self t rest)
    · cases h

theorem refusesNumber_of_collectConstants {e : NumeralError}
    (h : collectConstants source ts = .error e) : RefusesNumber ts e := by
  induction ts with
  | nil => cases h
  | cons t ts ih =>
    -- what is found at a token is put before what is found behind it
    have hbehind : ∀ x : Except NumeralError Constants,
        (x >>= fun found => collectConstants source ts >>= fun others => pure (found ++ others)) =
          .error e → x = .error e ∨ RefusesNumber (t :: ts) e := by
      intro x hx
      rcases Except.bind_eq_error_iff.1 hx with hx | ⟨found, -, hx⟩
      · exact .inl hx
      · rcases Except.bind_eq_error_iff.1 hx with hx | ⟨others, -, hx⟩
        · exact .inr ((ih hx).mono (List.subset_cons_self t ts))
        · cases hx
    rw [collectConstants.eq_def] at h
    dsimp only at h
    split at h
    · rename_i name eq value
      split at h
      · rcases hbehind _ h with h | h
        · refine (refusesNumber_of_readLeadingChain (Except.map_eq_error_iff.1 h)).mono ?_
          exact fun u hu => by simp [hu]
        · exact h
      · exact (hbehind _ h).resolve_left nofun
    · exact (hbehind _ h).resolve_left nofun

theorem isDeclared_of_onlyCall {e : ExtractError} (h : onlyCall factory ts = .error e) :
    e.isDeclared = true := by
  rw [onlyCall] at h
  split at h <;> cases h <;> rfl

/-- The arguments of a call are refused for their form, or for a number among its tokens. -/
theorem refusesNumber_of_readCall {site : CallSite} {e : ExtractError}
    (h : readCall source site = .error e) (he : e.isDeclared = false) :
    ∃ n, e = .numeral n ∧ RefusesNumber site.after n := by
  rw [readCall] at h
  rcases Except.bind_eq_error_iff.1 h with h | ⟨⟨arguments, rest⟩, -, h⟩
  · obtain ⟨n, hn, rfl⟩ := Except.mapError_eq_error_iff.1 h
    refine ⟨n, rfl, ?_⟩
    have hwithin := Expr.within_readItems source ")" false site.fromParenthesis.tail
    rw [Except.map_eq_error_iff.1 hn] at hwithin
    exact hwithin.mono ((List.tail_suffix _).trans (fromParenthesis_suffix site)).subset
  · dsimp only at h
    split at h
    · cases h
      cases he
    · split at h <;> cases h <;> cases he
    · cases h
      cases he

theorem isDeclared_of_configName {config : Members} {e : ExtractError}
    (h : configName config = .error e) : e.isDeclared = true := by
  rw [configName] at h
  split at h
  · split at h <;> cases h
    rfl
  · cases h
    rfl

theorem literalFault_of_findDeclaration {e : ExtractError}
    (h : findDeclaration factory source = .error e) (he : e.isDeclared = false) :
    LiteralFault factory source := by
  rw [findDeclaration] at h
  rcases Except.bind_eq_error_iff.1 h with h | ⟨ts, hts, h⟩
  · obtain ⟨⟨cause, offset⟩, hlex, rfl⟩ := Except.mapError_eq_error_iff.1 h
    obtain rfl : cause = .hugeEscape := by simpa [ExtractError.isDeclared] using he
    exact .escape offset hlex
  have hts : tokenize source = .ok ts := Except.mapError_eq_ok_iff.1 hts
  rcases Except.bind_eq_error_iff.1 h with h | ⟨site, hsite, h⟩
  · rw [isDeclared_of_onlyCall h] at he
    cases he
  rcases Except.bind_eq_error_iff.1 h with h | ⟨⟨config, fields⟩, -, h⟩
  · obtain ⟨n, rfl, hrefused⟩ := refusesNumber_of_readCall h he
    exact .number ts n hts (hrefused.mono (after_suffix_of_onlyCall hsite).subset)
  rcases Except.bind_eq_error_iff.1 h with h | ⟨name, -, h⟩
  · rw [isDeclared_of_configName h] at he
    cases he
  rcases Except.bind_eq_error_iff.1 h with h | ⟨constants, -, h⟩
  · obtain ⟨n, hn, rfl⟩ := Except.mapError_eq_error_iff.1 h
    exact .number ts n hts (refusesNumber_of_collectConstants hn)
  · cases h

/-- A source is refused for its declaration, or for the fault of a literal in it. -/
theorem literalFault_of_extract {origin : Text} {e : ExtractError}
    (h : (extract factory origin source).1 = .error e) (he : e.isDeclared = false) :
    LiteralFault factory source := by
  rw [extract] at h
  split at h
  · rename_i e' hd
    obtain rfl := Except.error.inj h
    exact literalFault_of_findDeclaration hd he
  · rename_i d hd
    dsimp only at h
    split at h
    · cases h
    · rename_i hname
      exact .surrogate d hd hname

end Scaffold
