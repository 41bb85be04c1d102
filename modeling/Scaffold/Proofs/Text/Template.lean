import Scaffold.Proofs.Outcome
import Scaffold.Proofs.Text.Word
import Scaffold.Text.Template

/-!
# Filling in templates

A template is filled in part by part (`Template.Gives`): text stands for itself, a brace is written
twice, and a field that is just a name gives the value of this name.  What one part gives comes
before what the rest gives (`Template.Gives.plain`, `Template.Gives.brace`, `Template.Gives.field`),
so that a template written from such parts can always be filled in, and what comes out can be read
off the parts.
-/

namespace Scaffold

namespace Template

open CodePoint

variable {values : List (Text × Text)} {t u name value : Text} {c : CodePoint}

/-- What a piece of a template gives. -/
def fillPiece (values : List (Text × Text)) (depth : Nat) : Piece → Except TemplateError Text
  | .literal t => .ok t
  | .broken e => .error e
  | .field p => do
    let value ← convert (← lookUp values p.path) p.conversion?
    let form ←
      if p.layout.contains (CodePoint.scalar '\x7b') then fillTo values depth p.layout
      else pure p.layout
    set value form

/-- The pieces of a template give the text `u`, one after the other. -/
def Gives (values : List (Text × Text)) (t u : Text) : Prop :=
  ∀ fuel, t.length < fuel → ∃ parts,
    List.Forall₂ (fun piece part => fillPiece values 1 piece = .ok part) (piecesWithin fuel t)
      parts ∧ parts.flatten = u

theorem Gives.fill_eq (h : Gives values t u) : fill values t = .ok u := by
  obtain ⟨parts, hparts, rfl⟩ := h (t.length + 1) (Nat.lt_succ_self _)
  have hpieces : (pieces t).mapM (fillPiece values 1) = .ok parts :=
    Except.mapM_eq_ok_iff.2 hparts
  have hfill : fill values t = (pieces t).mapM (fillPiece values 1) >>= fun parts =>
      .ok parts.flatten := by
    rw [fill, fillTo]
    congr 2
  rw [hfill, hpieces]
  rfl

theorem gives_nil (values : List (Text × Text)) : Gives values [] [] := by
  intro fuel hfuel
  cases fuel with
  | zero => cases hfuel
  | succ fuel => exact ⟨[[]], .cons rfl .nil, rfl⟩

/-- A code point that is no brace belongs to the text in front of a template, unless the template is
broken before any text. -/
theorem piecesWithin_cons (hc : isBrace c = false) (fuel : Nat) (t : Text) :
    (∃ before ps, piecesWithin (fuel + 1) t = .literal before :: ps ∧
      piecesWithin (fuel + 1) (c :: t) = .literal (c :: before) :: ps) ∨
    ∃ e, piecesWithin (fuel + 1) t = [.broken e] := by
  have hspan : Text.spanWhile (!isBrace ·) (c :: t) =
      (c :: (Text.spanWhile (!isBrace ·) t).1, (Text.spanWhile (!isBrace ·) t).2) := by
    simp [Text.spanWhile, hc]
  rw [piecesWithin, piecesWithin, hspan]
  generalize Text.spanWhile (!isBrace ·) t = span
  obtain ⟨before, rest⟩ := span
  match rest with
  | [] => exact .inl ⟨_, _, rfl, rfl⟩
  | [d] => exact .inr ⟨_, rfl⟩
  | d :: e :: rest =>
    dsimp only
    by_cases hde : d = e
    · rw [if_pos hde, if_pos hde]
      exact .inl ⟨_, _, rfl, rfl⟩
    · rw [if_neg hde, if_neg hde]
      by_cases hd : d = .scalar '\x7d'
      · rw [if_pos hd]
        exact .inr ⟨_, rfl⟩
      · rw [if_neg hd, if_neg hd]
        cases placeholder (e :: rest) with
        | error e => exact .inr ⟨_, rfl⟩
        | ok found => exact .inl ⟨_, _, rfl, rfl⟩

/-- A code point that is no brace stands for itself. -/
theorem Gives.plain (h : Gives values t u) (hc : isBrace c = false) :
    Gives values (c :: t) (c :: u) := by
  intro fuel hfuel
  obtain ⟨parts, hparts, rfl⟩ := h fuel (Nat.lt_of_succ_lt hfuel)
  cases fuel with
  | zero => cases hfuel
  | succ fuel =>
    rcases piecesWithin_cons hc fuel t with ⟨before, ps, ht, hct⟩ | ⟨e, ht⟩
    · rw [ht] at hparts
      obtain ⟨part, parts, hfirst, hrest, rfl⟩ := List.forall₂_cons_left_iff.1 hparts
      obtain rfl : before = part := Except.ok.inj hfirst
      rw [hct]
      exact ⟨(c :: before) :: parts, .cons rfl hrest, rfl⟩
    · -- a broken template gives nothing
      rw [ht] at hparts
      obtain ⟨part, -, hfirst, -⟩ := List.forall₂_cons_left_iff.1 hparts
      cases hfirst

theorem spanWhile_of_isBrace (hc : isBrace c = true) :
    Text.spanWhile (!isBrace ·) (c :: t) = ([], c :: t) := by
  simp [Text.spanWhile, hc]

/-- A brace that is text is written twice. -/
theorem Gives.brace (h : Gives values t u) (hc : isBrace c = true) :
    Gives values (c :: c :: t) (c :: u) := by
  intro fuel hfuel
  cases fuel with
  | zero => cases hfuel
  | succ fuel =>
    obtain ⟨parts, hparts, rfl⟩ := h fuel (by simp only [List.length_cons] at hfuel; omega)
    rw [piecesWithin, spanWhile_of_isBrace hc]
    dsimp only
    rw [if_pos rfl]
    exact ⟨[c] :: parts, .cons rfl hparts, rfl⟩

/-! ### Fields -/

/-- The name of a field: letters only. -/
def IsFieldName (name : Text) : Prop := name ≠ [] ∧ ∀ c ∈ name, c.isAsciiLetter = true

instance (name : Text) : Decidable (IsFieldName name) :=
  inferInstanceAs (Decidable (name ≠ [] ∧ ∀ c ∈ name, c.isAsciiLetter = true))

/-- A letter is none of the marks of a field, and no digit. -/
theorem not_mark_of_isAsciiLetter (h : c.isAsciiLetter = true) :
    (isBrace c = false ∧ c ≠ .scalar ':' ∧ c ≠ .scalar '!') ∧
      (isPick c = false ∧ c.digitValue? = none) := by
  have hword : c.isWordLetter = true := by simp [isWordLetter, h]
  exact of_isWordLetter (P := fun c => c.isAsciiLetter = true →
    (isBrace c = false ∧ c ≠ .scalar ':' ∧ c ≠ .scalar '!') ∧
      (isPick c = false ∧ c.digitValue? = none)) (by decide +kernel) hword h

theorem path_eq (h : ∀ c ∈ name, c.isAsciiLetter = true) (t : Text) :
    path (name ++ .scalar '\x7d' :: t) = .ok (name, .scalar '\x7d', t) := by
  induction name with
  | nil =>
    rw [List.nil_append, path]
    rfl
  | cons c name ih =>
    rw [List.forall_mem_cons] at h
    obtain ⟨⟨hbrace, hcolon, hmark⟩, hpick, -⟩ := not_mark_of_isAsciiLetter h.1
    rw [isBrace, Bool.or_eq_false_iff, decide_eq_false_iff_not, decide_eq_false_iff_not] at hbrace
    rw [isPick, Bool.or_eq_false_iff, decide_eq_false_iff_not, decide_eq_false_iff_not] at hpick
    rw [List.cons_append, path, if_neg hbrace.1,
      if_neg (by simp [hbrace.2, hcolon, hmark]), if_neg hpick.2, ih h.2]
    rfl

theorem lookUp_eq (h : IsFieldName name) (hv : values.lookup name = some value) :
    lookUp values name = .ok (.text value) := by
  obtain ⟨hne, hletters⟩ := h
  have hspan : Text.spanWhile (!isPick ·) name = (name, []) := by
    have hall : ∀ c ∈ name, (!isPick c) = true := fun c hc => by
      simp [(not_mark_of_isAsciiLetter (hletters c hc)).2.1]
    rw [Text.spanWhile, List.takeWhile_eq_self_iff.2 hall, List.dropWhile_eq_nil_iff.2 hall]
  have hindex : index? name = .ok none := by
    cases name with
    | nil => exact absurd rfl hne
    | cons c name =>
      have hdigit := (not_mark_of_isAsciiLetter (hletters c (by simp))).2.2
      rw [index?, List.isEmpty_cons, if_neg Bool.false_ne_true, indexFrom, hdigit]
  rw [lookUp, hspan]
  simp only [List.isEmpty_iff, hne, if_false, hindex, hv, List.length_nil, pickWithin]
  rfl

/-- A field that is a name gives the value of the name. -/
theorem Gives.field (h : Gives values t u) (hname : IsFieldName name)
    (hv : values.lookup name = some value) :
    Gives values (.scalar '\x7b' :: (name ++ .scalar '\x7d' :: t)) (value ++ u) := by
  obtain ⟨c, name', rfl⟩ := List.exists_cons_of_ne_nil hname.1
  obtain ⟨⟨hbrace, -⟩, -⟩ := not_mark_of_isAsciiLetter (hname.2 c (by simp))
  intro fuel hfuel
  cases fuel with
  | zero => cases hfuel
  | succ fuel =>
    obtain ⟨parts, hparts, rfl⟩ := h fuel (by
      simp only [List.length_cons, List.length_append] at hfuel
      omega)
    have hplaceholder : placeholder (c :: (name' ++ .scalar '\x7d' :: t)) =
        .ok (⟨c :: name', none, []⟩, t) := by
      rw [placeholder, ← List.cons_append, path_eq hname.2]
      rfl
    have hfield : fillPiece values 1 (.field ⟨c :: name', none, []⟩) = .ok value := by
      rw [fillPiece, lookUp_eq hname hv]
      rfl
    have hne : CodePoint.scalar '\x7b' ≠ c := by
      rintro rfl
      cases hbrace
    rw [piecesWithin, spanWhile_of_isBrace rfl, List.cons_append]
    dsimp only
    rw [if_neg hne, if_neg (by decide), hplaceholder]
    exact ⟨[] :: value :: parts, .cons rfl (.cons hfield hparts), rfl⟩

end Template

end Scaffold
