import Scaffold.Proofs.Outcome
import Scaffold.Token.Lexer

/-!
# The steps through a quotation

A quotation is read in steps: a mark or a part is read at its front, and then the rest of it.
`Scans` says what is read and what is left.  There is one lemma for each step of

* a string: `scanString_quote`, `scanString_escape`, `scanString_text`;
* a template: `scanTemplate_quote`, `scanTemplate_escape`, `scanTemplate_substitution`,
  `scanTemplate_text`;
* a substitution in a template, which is not read but passed over: those of `PassesOver`, and
  `skipSubstitution_brace`.
-/

namespace Scaffold

open CodePoint

/-- The scanner reads `v`, and leaves `rest`. -/
def Scans {α : Type} {t : Text} (x : Except LexFault (Scanned α t)) (v : α) (rest : Text) : Prop :=
  ∃ s, x = .ok s ∧ s.value = v ∧ s.rest = rest

namespace Scans

variable {α β : Type} {t u rest : Text} {x : Except LexFault (Scanned α t)} {f : α → β}

theorem lift {v : α} (h : Scans x v rest) (f : α → β) (hle : t.length ≤ u.length) :
    Scans (x.map (Scanned.lift f hle)) (f v) rest := by
  obtain ⟨s, rfl, rfl, rfl⟩ := h
  exact ⟨s.lift f hle, rfl, rfl, rfl⟩

theorem of_lift {w : β} {hle : t.length ≤ u.length}
    (h : Scans (x.map (Scanned.lift f hle)) w rest) :
    ∃ v, Scans x v rest ∧ f v = w := by
  obtain ⟨_, hs, rfl, rfl⟩ := h
  obtain ⟨s, rfl, rfl⟩ := Except.map_eq_ok_iff.1 hs
  exact ⟨s.value, ⟨s, rfl, rfl, rfl⟩, rfl⟩

end Scans

/-! ### Strings -/

section Strings

variable {quote c : CodePoint} {start : Nat} {t u v w rest : Text}

/-- The string ends at its quote. -/
theorem scanString_quote (quote : CodePoint) (start : Nat) (rest : Text) :
    Scans (scanString quote start (quote :: rest)) [] rest :=
  ⟨⟨[], rest, Nat.lt_succ_self _⟩, by rw [scanString, if_pos rfl], rfl, rfl⟩

/-- An escape sequence in a string, and what the string goes on with. -/
theorem scanString_escape (hquote : quote ≠ .scalar '\\') (hread : Escape.read t = .ok (v, u))
    (h : Scans (scanString quote start u) w rest) :
    Scans (scanString quote start (.scalar '\\' :: t)) (v ++ w) rest := by
  rw [scanString, if_neg hquote.symm, if_pos rfl]
  split
  · rename_i hfault
    rw [hread] at hfault
    cases hfault
  · rename_i hread'
    rw [hread] at hread'
    cases hread'
    exact h.lift (v ++ ·) _

/-- A code point that stands for itself in a string. -/
theorem scanString_text (hquote : c ≠ quote) (hescape : c ≠ .scalar '\\') (hline : c ≠ .scalar '\n')
    (h : Scans (scanString quote start t) v rest) :
    Scans (scanString quote start (c :: t)) (c :: v) rest := by
  rw [scanString, if_neg hquote, if_neg hescape, if_neg hline]
  exact h.lift (c :: ·) _

end Strings

/-! ### Templates -/

section Templates

variable {c : CodePoint} {start : Nat} {t u v w rest : Text} {i : Bool}

/-- The template ends at its backquote. -/
theorem scanTemplate_quote (start : Nat) (rest : Text) :
    Scans (scanTemplate start (.scalar '\x60' :: rest)) ([], false) rest := by
  rw [scanTemplate.eq_def]
  exact ⟨_, rfl, rfl, rfl⟩

/-- An escape sequence in a template, and what the template goes on with. -/
theorem scanTemplate_escape (hread : Escape.read t = .ok (v, u))
    (h : Scans (scanTemplate start u) (w, i) rest) :
    Scans (scanTemplate start (.scalar '\\' :: t)) (v ++ w, i) rest := by
  rw [scanTemplate.eq_def]
  dsimp only
  rw [if_neg (by decide), if_pos rfl]
  split
  · rename_i hfault
    rw [hread] at hfault
    cases hfault
  · rename_i hread'
    rw [hread] at hread'
    cases hread'
    exact h.lift (fun x : Text × Bool => (v ++ x.1, x.2)) _

/-- A substitution in a template, and what the template goes on with. -/
theorem scanTemplate_substitution (hskips : Scans (skipSubstitution 0 t) () u)
    (h : Scans (scanTemplate start u) (w, i) rest) :
    Scans (scanTemplate start (.scalar '$' :: .scalar '\x7b' :: t)) (w, true) rest := by
  obtain ⟨s, hs, -, rfl⟩ := hskips
  rw [scanTemplate, if_neg (by decide), if_neg (by decide), if_pos rfl]
  simp only [hs]
  exact h.lift (fun x : Text × Bool => (x.1, true)) _

/-- A code point that stands for itself in a template. -/
theorem scanTemplate_text (hquote : c ≠ .scalar '\x60') (hescape : c ≠ .scalar '\\')
    (hbrace : ¬ Text.ofString "$\x7b" <+: c :: t) (h : Scans (scanTemplate start t) (w, i) rest) :
    Scans (scanTemplate start (c :: t)) (c :: w, i) rest := by
  by_cases hdollar : c = .scalar '$'
  · rw [scanTemplate, if_neg hquote, if_neg hescape, if_pos hdollar]
    · exact h.lift (fun x : Text × Bool => (c :: x.1, x.2)) _
    · rintro u rfl
      exact hbrace ⟨u, by rw [hdollar]; rfl⟩
  · rw [scanTemplate.eq_def]
    dsimp only
    rw [if_neg hquote, if_neg hescape, if_neg hdollar]
    exact h.lift (fun x : Text × Bool => (c :: x.1, x.2)) _

end Templates

/-! ### Substitutions -/

/-- In a substitution with `depth` braces open the text is passed over, and then `depth'` are
open. -/
def PassesOver (depth : Nat) (t : Text) (depth' : Nat) : Prop :=
  ∀ u rest, Scans (skipSubstitution depth' u) () rest →
    Scans (skipSubstitution depth (t ++ u)) () rest

/-- The substitution ends at a brace that closes nothing in it. -/
theorem skipSubstitution_brace (rest : Text) :
    Scans (skipSubstitution 0 (.scalar '\x7d' :: rest)) () rest := by
  rw [skipSubstitution]
  exact ⟨_, rfl, rfl, rfl⟩

namespace PassesOver

variable {depth depth' depth'' : Nat} {t u : Text} {c : CodePoint}

theorem nil (depth : Nat) : PassesOver depth [] depth := fun _ _ h => h

theorem append (ht : PassesOver depth t depth') (hu : PassesOver depth' u depth'') :
    PassesOver depth (t ++ u) depth'' := fun v rest h => by
  rw [List.append_assoc]
  exact ht _ _ (hu v rest h)

/-- A string is passed over. -/
theorem string {quote : CodePoint} {body : Text} {v : Text}
    (hquote : quote = .scalar '\'' ∨ quote = .scalar '"')
    (h : ∀ start rest', Scans (scanString quote start (body ++ rest')) v rest') (depth : Nat) :
    PassesOver depth (quote :: body) depth := by
  intro u rest hu
  obtain ⟨s, hs, -, hrest⟩ := h ((body ++ u).length + 1) u
  rw [← hrest] at hu
  rw [List.cons_append, skipSubstitution.eq_def]
  dsimp only
  rw [if_pos hquote]
  simp only [hs]
  exact hu.lift _ _

/-- A template is passed over, with the substitutions in it. -/
theorem template {body : Text} {v : Text × Bool}
    (h : ∀ start rest', Scans (scanTemplate start (body ++ rest')) v rest') (depth : Nat) :
    PassesOver depth (.scalar '\x60' :: body) depth := by
  intro u rest hu
  obtain ⟨s, hs, -, hrest⟩ := h ((body ++ u).length + 1) u
  rw [← hrest] at hu
  rw [List.cons_append, skipSubstitution.eq_def]
  dsimp only
  rw [if_neg (by decide), if_pos rfl]
  simp only [hs]
  exact hu.lift _ _

/-- A brace is opened. -/
theorem opening (depth : Nat) : PassesOver depth [.scalar '\x7b'] (depth + 1) := by
  intro u rest h
  rw [List.singleton_append, skipSubstitution.eq_def]
  exact h.lift _ _

/-- A brace is closed. -/
theorem closing (depth : Nat) : PassesOver (depth + 1) [.scalar '\x7d'] depth := by
  intro u rest h
  rw [List.singleton_append, skipSubstitution]
  exact h.lift _ _

/-- Any other code point is passed over. -/
theorem other (hstring : ¬ (c = .scalar '\'' ∨ c = .scalar '"')) (htemplate : c ≠ .scalar '\x60')
    (hopen : c ≠ .scalar '\x7b') (hclose : c ≠ .scalar '\x7d') (depth : Nat) :
    PassesOver depth [c] depth := by
  intro u rest h
  rw [List.singleton_append, skipSubstitution.eq_def]
  dsimp only
  rw [if_neg hstring, if_neg htemplate, if_neg hopen, if_neg hclose]
  exact h.lift _ _

end PassesOver

end Scaffold
