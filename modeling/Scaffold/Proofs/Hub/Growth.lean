import Scaffold.Hub.Basic
import Scaffold.Proofs.Text.Occurrence

/-!
# Hubs grow by whole lines

`Text.Grows e n old new` says that `new` is `old` with at most `n` blocks of lines put into it, each
of them at the beginning, behind a line feed or at the end of `old`, and every line of a block ended
by `e`.  Nothing of `old` is lost or moved (`Text.Grows.sublist`), and a text in which every line
ends in both code points keeps that (`Text.Grows.endsInBoth`).

Putting a block between two lines of a text that has grown is growth again (`Text.Grows.insert`,
`Text.Grows.extend`); from that, each step of a registration grows the text of a hub by one block,
and the whole registration by one block for each reference line and one for the entry
(`Hub.grows_register`).
-/

namespace Scaffold

open CodePoint

/-- The carriage return. -/
abbrev CodePoint.carriageReturn : CodePoint := .scalar '\r'

/-- The text has no code point that ends a line. -/
def Text.IsPlainLine (t : Text) : Prop := newline ∉ t ∧ carriageReturn ∉ t

instance (t : Text) : Decidable t.IsPlainLine :=
  inferInstanceAs (Decidable (newline ∉ t ∧ carriageReturn ∉ t))

namespace LineEnd

/-- Lines without an end of their own, each ended by `e`. -/
def IsBlock (e : LineEnd) (b : Text) : Prop :=
  ∃ bodies : List Text, (∀ body ∈ bodies, body.IsPlainLine) ∧ b = bodies.flatMap (· ++ e.text)

variable {e : LineEnd}

theorem text_eq_concat (e : LineEnd) :
    ∃ s : Text, s.IsInline ∧ e.text = s ++ [newline] ∧ (s = [] ∨ s = [carriageReturn]) := by
  cases e
  · exact ⟨[], by simp, by decide, .inl rfl⟩
  · exact ⟨[carriageReturn], by decide, by decide, .inr rfl⟩

theorem isClosed_text (e : LineEnd) : e.text.IsClosed := by
  cases e <;> decide

theorem text_ne_nil (e : LineEnd) : e.text ≠ [] := by
  cases e <;> decide

/-- The end of a line is not divided. -/
theorem eq_nil_of_text_eq_append {s t : Text} (h : e.text = s ++ t) (hs : s.IsClosed)
    (hne : s ≠ []) : t = [] := by
  obtain ⟨u, hu, he, -⟩ := e.text_eq_concat
  obtain ⟨v, rfl⟩ := hs.eq_concat hne
  rw [he] at h
  rcases List.eq_nil_or_concat' t with rfl | ⟨w, c, rfl⟩
  · rfl
  · have : u = v ++ [newline] ++ w := by
      rw [← List.append_assoc] at h
      exact (List.append_inj' h rfl).1
    simp [this, Text.IsInline] at hu

theorem isBlock_line {body : Text} (h : body.IsPlainLine) : e.IsBlock (body ++ e.text) :=
  ⟨[body], by simpa using h, by simp⟩

theorem IsBlock.append {b c : Text} (hb : e.IsBlock b) (hc : e.IsBlock c) :
    e.IsBlock (b ++ c) := by
  obtain ⟨bs, hbs, rfl⟩ := hb
  obtain ⟨cs, hcs, rfl⟩ := hc
  refine ⟨bs ++ cs, fun x hx => ?_, by simp⟩
  rcases List.mem_append.1 hx with hx | hx
  · exact hbs x hx
  · exact hcs x hx

theorem IsBlock.isClosed {b : Text} (h : e.IsBlock b) : b.IsClosed := by
  obtain ⟨bodies, -, rfl⟩ := h
  induction bodies with
  | nil => simp
  | cons body bodies ih =>
    rw [List.flatMap_cons]
    exact Text.isClosed_append ih fun _ =>
      Text.isClosed_append e.isClosed_text fun h => absurd h e.text_ne_nil

theorem lines_flatMap_text {bodies : List Text} (h : ∀ body ∈ bodies, body.IsPlainLine) :
    Text.lines (bodies.flatMap (· ++ e.text)) = bodies.map (· ++ e.text) := by
  obtain ⟨s, hs, he, -⟩ := e.text_eq_concat
  induction bodies with
  | nil => rfl
  | cons body bodies ih =>
    have hb : (body ++ s).IsInline :=
      Text.isInline_append.2 ⟨(h body (by simp)).1, hs⟩
    have := Text.lines_inline_append (t := bodies.flatMap (· ++ e.text)) hb
    rw [List.flatMap_cons, List.map_cons, ← ih fun b hb => h b (by simp [hb]), he]
    rw [he] at this
    simpa using this

/-- A block is divided between its lines only. -/
theorem IsBlock.of_append {b c : Text} (h : e.IsBlock (b ++ c)) (hb : b.IsClosed) :
    e.IsBlock b ∧ e.IsBlock c := by
  obtain ⟨bodies, hl, he⟩ := h
  have hlines := congrArg Text.lines he
  rw [Text.lines_append hb, lines_flatMap_text hl] at hlines
  obtain ⟨bs, cs, rfl, hbs, hcs⟩ := List.map_eq_append_iff.1 hlines.symm
  refine ⟨⟨bs, fun x hx => hl x (by simp [hx]), ?_⟩, cs, fun x hx => hl x (by simp [hx]), ?_⟩
  · rw [← Text.flatten_lines b, ← hbs, List.flatMap_def]
  · rw [← Text.flatten_lines c, ← hcs, List.flatMap_def]

end LineEnd

namespace Text

/-- `new` is `old` with at most `n` blocks put into it.  `atStart` tells whether a line begins where
`old` does. -/
inductive GrowsFrom (e : LineEnd) : (atStart : Bool) → (n : Nat) → (old new : Text) → Prop
  /-- Nothing is left of the old text. -/
  | done (b : Bool) (n : Nat) : GrowsFrom e b n [] []
  /-- A code point of the old text stays. -/
  | keep {b : Bool} {n : Nat} {old new : Text} (c : CodePoint) :
    GrowsFrom e (c = newline) n old new → GrowsFrom e b n (c :: old) (c :: new)
  /-- A block stands where a line begins. -/
  | block {n : Nat} {old new b : Text} :
    e.IsBlock b → GrowsFrom e true n old new → GrowsFrom e true (n + 1) old (b ++ new)
  /-- A block stands behind the last line, which is ended for it. -/
  | behind {b : Text} (n : Nat) : e.IsBlock b → GrowsFrom e false (n + 1) [] (e.text ++ b)

/-- `new` is `old` with at most `n` blocks put into it. -/
def Grows (e : LineEnd) (n : Nat) (old new : Text) : Prop := GrowsFrom e true n old new

variable {e : LineEnd} {b : Bool} {n m : Nat} {old new : Text}

theorem GrowsFrom.mono (h : GrowsFrom e b n old new) (hm : n ≤ m) :
    GrowsFrom e b m old new := by
  induction h generalizing m with
  | done b n => exact .done b m
  | keep c _ ih => exact .keep c (ih hm)
  | block hb _ ih =>
    obtain ⟨m, rfl⟩ : ∃ k, m = k + 1 := ⟨m - 1, by omega⟩
    exact .block hb (ih (by omega))
  | behind n hb =>
    obtain ⟨m, rfl⟩ : ∃ k, m = k + 1 := ⟨m - 1, by omega⟩
    exact .behind m hb

theorem GrowsFrom.refl (e : LineEnd) (b : Bool) (n : Nat) (t : Text) : GrowsFrom e b n t t := by
  induction t generalizing b with
  | nil => exact .done b n
  | cons c t ih => exact .keep c (ih _)

/-- A block is put where a line of the new text begins. -/
theorem GrowsFrom.insert {p q blk : Text} (h : GrowsFrom e b n old (p ++ q))
    (hp : p.IsClosed) (hb : p = [] → b = true) (hblk : e.IsBlock blk) :
    GrowsFrom e b (n + 1) old (p ++ blk ++ q) := by
  generalize hn : p ++ q = new at h
  induction h generalizing p with
  | done b n =>
    obtain ⟨rfl, rfl⟩ := List.append_eq_nil_iff.1 hn
    obtain rfl := hb rfl
    exact .block hblk (.done true n)
  | @keep b n old new c h ih =>
    cases p with
    | nil =>
      obtain rfl := hb rfl
      obtain rfl : q = c :: new := hn
      exact .block hblk (.keep c h)
    | cons d p =>
      simp only [List.cons_append, List.cons.injEq] at hn
      obtain ⟨rfl, hn⟩ := hn
      obtain ⟨hp, hd⟩ := isClosed_cons.1 hp
      exact .keep d (ih hp (fun h => by simpa using hd h) hn)
  | @block n old new c hc h ih =>
    rcases List.append_eq_append_iff.1 hn with ⟨r, rfl, rfl⟩ | ⟨r, rfl, rfl⟩
    · -- the new block lies inside the old one
      obtain ⟨h₁, h₂⟩ := hc.of_append hp
      have := GrowsFrom.block ((h₁.append hblk).append h₂) (h.mono (Nat.le_succ n))
      simpa using this
    · have hr : IsClosed r := by
        by_cases hn : r = []
        · exact hn ▸ isClosed_nil
        · exact hp.of_append hn
      have := GrowsFrom.block hc (ih hr (fun _ => rfl) rfl)
      simpa using this
  | @behind c n hc =>
    have hne : p ≠ [] := fun h => Bool.false_ne_true (hb h)
    have hsplit : ∃ r, p = e.text ++ r ∧ c = r ++ q := by
      rcases List.append_eq_append_iff.1 hn with ⟨r, hr, rfl⟩ | h
      · obtain rfl := LineEnd.eq_nil_of_text_eq_append hr hp hne
        exact ⟨[], by simpa using hr.symm, rfl⟩
      · exact h
    obtain ⟨r, rfl, rfl⟩ := hsplit
    have hr : IsClosed r := by
      by_cases hn : r = []
      · exact hn ▸ isClosed_nil
      · exact hp.of_append hn
    obtain ⟨h₁, h₂⟩ := hc.of_append hr
    have := GrowsFrom.behind (n + 1) ((h₁.append hblk).append h₂)
    simpa using this

/-- A block is put behind a last line that has no end. -/
theorem GrowsFrom.extend {blk : Text} (h : GrowsFrom e b n old new)
    (hne : new ≠ [] → ¬ new.IsClosed) (hb : new = [] → b = false) (hblk : e.IsBlock blk) :
    GrowsFrom e b (n + 1) old (new ++ (e.text ++ blk)) := by
  induction h with
  | done b n =>
    rw [hb rfl]
    exact .behind n hblk
  | @keep b n old new c h ih =>
    have hc : ¬ IsClosed (c :: new) := hne (by simp)
    refine .keep c (ih (fun hn h => hc (isClosed_cons.2 ⟨h, fun h => absurd h hn⟩)) fun hn => ?_)
    exact decide_eq_false fun h => hc (by simp [hn, h, IsClosed])
  | @block n old new c hc h ih =>
    rw [List.append_assoc]
    refine .block hc (ih (fun hn h => hne (by simp [hn]) (hc.isClosed.append h)) fun hn => ?_)
    subst hn
    by_cases hn : c = []
    · exact hb (by simp [hn])
    · exact absurd (by simpa using hc.isClosed) (hne (by simp [hn]))
  | @behind c n hc =>
    exact absurd (e.isClosed_text.append hc.isClosed) (hne (by simp [e.text_ne_nil]))

/-- Nothing of the old text is lost or moved. -/
theorem GrowsFrom.sublist (h : GrowsFrom e b n old new) : old.Sublist new := by
  induction h with
  | done b n => exact .slnil
  | keep c _ ih => exact ih.cons_cons c
  | block _ _ ih => exact ih.trans (List.sublist_append_right _ _)
  | behind _ _ => exact List.nil_sublist _

/-! ### Lines that end in both code points -/

/-- Every line feed stands behind a carriage return; `after` tells whether one stands in front of
the text. -/
def endsInBothFrom (after : Bool) : Text → Bool
  | [] => true
  | c :: t => (!c.isLineFeed || after) && endsInBothFrom (c = carriageReturn) t

/-- Every line feed stands behind a carriage return. -/
def endsInBoth (t : Text) : Bool := endsInBothFrom false t

theorem endsInBothFrom_line {body t : Text} {r : Bool} (h : body.IsInline) :
    endsInBothFrom r (body ++ (LineEnd.both.text ++ t)) = endsInBothFrom false t := by
  induction body generalizing r with
  | nil => simp [LineEnd.text, ofString, endsInBothFrom, CodePoint.isLineFeed]
  | cons c body ih =>
    obtain ⟨hc, hb⟩ := isInline_cons.1 h
    have hf : c.isLineFeed = false := by simpa [CodePoint.isLineFeed] using hc
    rw [List.cons_append, endsInBothFrom, hf, ih hb]
    simp

theorem endsInBothFrom_block {b t : Text} (h : LineEnd.both.IsBlock b) :
    endsInBothFrom false (b ++ t) = endsInBothFrom false t := by
  obtain ⟨bodies, hl, rfl⟩ := h
  induction bodies with
  | nil => rfl
  | cons body bodies ih =>
    rw [List.flatMap_cons, List.append_assoc, List.append_assoc,
      endsInBothFrom_line (hl body (by simp)).1, ih fun b hb => hl b (by simp [hb])]

theorem GrowsFrom.endsInBothFrom {r : Bool} (h : GrowsFrom .both b n old new)
    (hr : b = true → r = false) (ho : old.endsInBothFrom r = true) :
    new.endsInBothFrom r = true := by
  generalize he : LineEnd.both = e at h
  induction h generalizing r with
  | done b n => rfl
  | keep c _ ih =>
    rw [Text.endsInBothFrom, Bool.and_eq_true] at ho ⊢
    refine ⟨ho.1, ih (fun hc => ?_) ho.2⟩
    simp [of_decide_eq_true hc]
  | block hb _ ih =>
    subst he
    obtain rfl := hr rfl
    rw [endsInBothFrom_block hb]
    exact ih (fun _ => rfl) ho
  | @behind c n hb =>
    subst he
    have := endsInBothFrom_line (r := r) (t := c) isInline_nil
    rw [List.nil_append] at this
    rw [this, ← List.append_nil c, endsInBothFrom_block hb]
    rfl

end Text

namespace Hub

open Text

variable {e : LineEnd} {n : Nat} {old t : Text}

/-! ### Steps of a registration -/

theorem flatten_map_ended (e : LineEnd) (t : Text) (n : Nat) :
    ((t.lines.take n).map (ended e)).flatten =
      if IsClosed (t.lines.take n).flatten then (t.lines.take n).flatten
      else (t.lines.take n).flatten ++ e.text := by
  induction t using inductionOnLines generalizing n with
  | empty => simp [lines]
  | last t hne hi =>
    cases n with
    | zero => simp
    | succ n =>
      have hc : ¬ t.IsClosed := fun h => by
        obtain ⟨s, rfl⟩ := h.eq_concat hne
        simp [IsInline] at hi
      have he : t.isEnded = false := by
        rw [Bool.eq_false_iff, ne_eq, isEnded_eq_true]
        exact fun h => hc h.2
      simp [lines_of_isInline hi hne, ended, hc, he]
  | line s u hs ih =>
    cases n with
    | zero => simp
    | succ n =>
      have hl : IsClosed (s ++ [newline]) := isClosed_concat.2 rfl
      have he : ended e (s ++ [newline]) = s ++ [newline] := by
        rw [ended, if_pos (isEnded_eq_true.2 ⟨by simp, hl⟩)]
      have hiff : IsClosed (s ++ [newline] ++ (u.lines.take n).flatten) ↔
          IsClosed (u.lines.take n).flatten := by
        refine ⟨fun h => ?_, hl.append⟩
        by_cases hn : (u.lines.take n).flatten = []
        · exact hn ▸ isClosed_nil
        · exact h.of_append hn
      rw [lines_inline_append hs, List.take_succ_cons, List.map_cons, List.flatten_cons,
        List.flatten_cons, ih, he]
      simp only [hiff]
      split <;> simp

/-- A line goes behind a closed beginning of the text, or behind the whole text, whose last line is
ended for it. -/
theorem flatten_insertAt (e : LineEnd) (t : Text) (n : Nat) (x : Text) :
    ∃ before after, t = before ++ after ∧ before = (t.lines.take n).flatten ∧
      ((before.IsClosed ∧ (insertAt e t.lines n x).flatten = before ++ (x ++ e.text) ++ after) ∨
        (¬ before.IsClosed ∧ after = [] ∧
          (insertAt e t.lines n x).flatten = before ++ (e.text ++ (x ++ e.text)))) := by
  refine ⟨(t.lines.take n).flatten, (t.lines.drop n).flatten, ?_, rfl, ?_⟩
  · rw [← List.flatten_append, List.take_append_drop, flatten_lines]
  · by_cases hc : IsClosed (t.lines.take n).flatten
    · refine .inl ⟨hc, ?_⟩
      rw [insertAt, List.flatten_append, List.flatten_append, flatten_map_ended, if_pos hc]
      simp
    · have hn : t.lines.length ≤ n := by
        by_contra h
        exact hc (isClosed_flatten_take_lines (by omega))
      refine .inr ⟨hc, by simp [List.drop_eq_nil_of_le hn], ?_⟩
      rw [insertAt, List.flatten_append, List.flatten_append, flatten_map_ended, if_neg hc,
        List.drop_eq_nil_of_le hn]
      simp

theorem grows_insertAt {x : Text} (h : Grows e n old t) (m : Nat)
    (hx : e.IsBlock (x ++ e.text)) : Grows e (n + 1) old (insertAt e t.lines m x).flatten := by
  obtain ⟨before, after, ht, -, ⟨hc, hi⟩ | ⟨hc, rfl, hi⟩⟩ := flatten_insertAt e t m x
  · rw [hi]
    exact GrowsFrom.insert (ht ▸ h) hc (fun _ => rfl) hx
  · rw [List.append_nil] at ht
    rw [hi, ← ht]
    exact GrowsFrom.extend h (fun _ => ht ▸ hc)
      (fun hn => absurd isClosed_nil (by rw [← hn, ht]; exact hc)) hx

/-! ### The entry and the marker -/

theorem isBlock_replaceAll (e : LineEnd) {entry : Text} (h : carriageReturn ∉ entry) :
    e.IsBlock (entry.replaceAll '\n' e.text ++ e.text) := by
  induction entry using inductionOnLines with
  | empty => exact LineEnd.isBlock_line ⟨by simp [replaceAll], by simp [replaceAll]⟩
  | last t hne hi =>
    have ht : t.replaceAll '\n' e.text = t := replaceAll_of_not_mem hi
    rw [ht]
    exact LineEnd.isBlock_line ⟨hi, h⟩
  | line s u hs ih =>
    simp only [List.mem_append, List.mem_cons, not_or] at h
    have hr : (s ++ newline :: u).replaceAll '\n' e.text =
        s ++ e.text ++ u.replaceAll '\n' e.text := by
      have ht : s.replaceAll '\n' e.text = s := replaceAll_of_not_mem hs
      rw [replaceAll, List.flatMap_append, List.flatMap_cons, if_pos rfl]
      rw [replaceAll] at ht
      rw [ht, List.append_assoc]
      rfl
    rw [hr, List.append_assoc]
    exact (LineEnd.isBlock_line ⟨hs, h.1⟩).append (ih h.2.2)

/-- The block stands directly below the first line of the text that has the word. -/
def StandsBelow (w block t : Text) : Prop :=
  ∃ above body below : Text, t = above ++ (body ++ [newline]) ++ block ++ below ∧
    above.IsClosed ∧ above.includes w = false ∧ body.IsInline ∧ body.includes w = true

/-- The first line that has a word: the text above it has no occurrence, and it is a line of its
own, with or without its line feed. -/
theorem exists_firstLine {w : Text} (hw : w.IsInline) (hne : w ≠ [])
    (ht : t.includes w = true) :
    ∃ (n : Nat) (above body after : Text), firstLine? (·.includes w) t.lines = some n ∧
      (t.lines.take (n + 1)).flatten = above ++ body ++ after ∧ above.IsClosed ∧
      above.includes w = false ∧ body.IsInline ∧ body.includes w = true ∧
      (after = [newline] ∨ after = []) := by
  induction t using inductionOnLines with
  | empty => simp [includes_nil hne] at ht
  | last t hn hi =>
    refine ⟨0, [], t, [], ?_, by simp [lines_of_isInline hi hn], by simp, includes_nil hne, hi,
      ht, .inr rfl⟩
    simp [firstLine?, lines_of_isInline hi hn, lineBody_of_isInline hi, ht]
  | line s u hs ih =>
    rw [lines_inline_append hs]
    by_cases h : s.includes w = true
    · refine ⟨0, [], s, [newline], ?_, by simp, by simp, includes_nil hne, hs, h, .inl rfl⟩
      simp [firstLine?, List.findIdx?_cons, lineBody_concat, h]
    · rw [includes_append_newline hw hne] at ht
      obtain ⟨n, above, body, after, hf, htake, hc, ha, hb⟩ :=
        ih ((Bool.or_eq_true _ _ ▸ ht).resolve_left h)
      refine ⟨n + 1, s ++ newline :: above, body, after, ?_, by simp [htake], ?_, ?_, hb⟩
      · rw [firstLine?] at hf
        simp [firstLine?, List.findIdx?_cons, lineBody_concat, h, hf]
      · exact isClosed_append (isClosed_cons.2 ⟨hc, fun _ => rfl⟩) (by simp)
      · rw [includes_append_newline hw hne, ha, Bool.or_false]
        simpa using h

theorem standsBelow_insertEntry (h : Hub) (hw : h.marker.IsInline) (hne : h.marker ≠ [])
    (ht : t.includes h.marker = true) (entry : Text) :
    StandsBelow h.marker (entry.replaceAll '\n' e.text ++ e.text) (h.insertEntry e t entry) := by
  obtain ⟨n, above, body, after, hf, htake, hc, ha, hi, hb, hafter⟩ := exists_firstLine hw hne ht
  obtain ⟨before, rest, -, hbefore, hcase⟩ :=
    flatten_insertAt e t (n + 1) (entry.replaceAll '\n' e.text)
  rw [htake] at hbefore
  have hentry : h.insertEntry e t entry =
      (insertAt e t.lines (n + 1) (entry.replaceAll '\n' e.text)).flatten := by
    rw [insertEntry, hf]
  rw [hentry]
  rcases hafter with rfl | rfl
  · have hcl : before.IsClosed := by rw [hbefore]; exact isClosed_concat.2 rfl
    refine ⟨above, body, rest, ?_, hc, ha, hi, hb⟩
    rcases hcase with ⟨-, hcase⟩ | ⟨h, -⟩
    · simp [hcase, hbefore]
    · exact absurd hcl h
  · -- the last line has no end: the end that it gets belongs to the line of the marker
    have hbn : body ≠ [] := fun hn => by simp [hn, includes_nil hne] at hb
    have hcl : ¬ before.IsClosed := fun h => by
      rw [hbefore, List.append_nil] at h
      obtain ⟨s, rfl⟩ := (h.of_append hbn).eq_concat hbn
      simp [IsInline] at hi
    obtain ⟨s, hs, he, -⟩ := e.text_eq_concat
    refine ⟨above, body ++ s, rest, ?_, hc, ha, isInline_append.2 ⟨hi, hs⟩, ?_⟩
    · rcases hcase with ⟨h, -⟩ | ⟨-, hr, hcase⟩
      · exact absurd h hcl
      · rw [hcase, hr, hbefore, he]
        simp
    · exact includes_eq_true.2 (List.infix_append_of_infix_left (includes_eq_true.1 hb))

/-! ### A whole registration -/

theorem grows_refer (h : Hub) (r : Resource) (rule : ReferenceLine) (ht : Grows e n old t)
    (hl : (rule.line r).IsPlainLine) : Grows e (n + 1) old (h.refer r e t rule).1 := by
  rw [refer]
  split
  · exact ht.mono (Nat.le_succ n)
  · dsimp only
    split
    · exact grows_insertAt ht _ (LineEnd.isBlock_line hl)
    · exact ht.mono (Nat.le_succ n)

theorem referAll_nil (h : Hub) (r : Resource) (e : LineEnd) (t : Text) :
    (h.referAll r e t []).1 = t := rfl

theorem referAll_cons (h : Hub) (r : Resource) (e : LineEnd) (t : Text) (rule : ReferenceLine)
    (rules : List ReferenceLine) :
    (h.referAll r e t (rule :: rules)).1 = (h.referAll r e (h.refer r e t rule).1 rules).1 := rfl

theorem grows_referAll (h : Hub) (r : Resource) {rules : List ReferenceLine}
    (hl : ∀ rule ∈ rules, (rule.line r).IsPlainLine) (ht : Grows e n old t) :
    Grows e (n + rules.length) old (h.referAll r e t rules).1 := by
  induction rules generalizing n t with
  | nil => exact ht
  | cons rule rules ih =>
    have := ih (fun x hx => hl x (by simp [hx])) (grows_refer h r rule ht (hl rule (by simp)))
    rw [List.length_cons, Nat.add_comm rules.length, ← Nat.add_assoc]
    exact this

theorem grows_insertEntry (h : Hub) {entry : Text} (hr : carriageReturn ∉ entry)
    (ht : Grows e n old t) : Grows e (n + 1) old (h.insertEntry e t entry) := by
  rw [insertEntry]
  split
  · exact grows_insertAt ht _ (isBlock_replaceAll e hr)
  · exact ht.mono (Nat.le_succ n)

/-- A word on one line is not torn by lines that are put between others. -/
theorem includes_insertAt {w : Text} (hw : w.IsInline) (hne : w ≠ []) (ht : t.includes w = true)
    (e : LineEnd) (m : Nat) (x : Text) :
    Text.includes (insertAt e t.lines m x).flatten w = true := by
  obtain ⟨before, after, rfl, -, ⟨hc, hi⟩ | ⟨-, rfl, hi⟩⟩ := flatten_insertAt e t m x
  · rw [includes_append_of_isClosed hw hne hc, Bool.or_eq_true, includes_eq_true,
      includes_eq_true] at ht
    rw [hi, includes_eq_true]
    rcases ht with ht | ht
    · rw [List.append_assoc]
      exact List.infix_append_of_infix_left ht
    · exact List.infix_append_of_infix_right ht
  · rw [hi, includes_eq_true]
    rw [List.append_nil, includes_eq_true] at ht
    exact List.infix_append_of_infix_left ht

theorem includes_referAll (h : Hub) (r : Resource) {w : Text} (hw : w.IsInline) (hne : w ≠ [])
    (ht : t.includes w = true) (rules : List ReferenceLine) :
    (h.referAll r e t rules).1.includes w = true := by
  induction rules generalizing t with
  | nil => exact ht
  | cons rule rules ih =>
    have hrule : (h.refer r e t rule).1.includes w = true := by
      rw [refer]
      split
      · exact ht
      · dsimp only
        split
        · exact includes_insertAt hw hne ht e _ _
        · exact ht
    exact ih hrule

/-- **A registration only puts whole lines into a hub**: a block for each reference line and one for
the entry, which stands directly below the first line that has the marker. -/
theorem grows_register (h : Hub) (r : Resource) (hw : h.marker.IsInline) (hne : h.marker ≠ [])
    (hl : ∀ rule ∈ h.references, (rule.line r).IsPlainLine) (hr : carriageReturn ∉ h.entry r)
    (ht : t.includes h.marker = true) :
    Grows (LineEnd.of t) (h.references.length + 1) t (h.register r t).1 ∧
      StandsBelow h.marker
        ((h.entry r).replaceAll '\n' (LineEnd.of t).text ++ (LineEnd.of t).text)
        (h.register r t).1 := by
  have hg := grows_referAll h r hl (GrowsFrom.refl (LineEnd.of t) true 0 t)
  rw [Nat.zero_add] at hg
  exact ⟨grows_insertEntry h hr hg, standsBelow_insertEntry h hw hne
    (includes_referAll h r hw hne ht h.references) (h.entry r)⟩

end Hub

end Scaffold
