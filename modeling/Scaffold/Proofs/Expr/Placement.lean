import Scaffold.Proofs.Expr.Steps
import Scaffold.Proofs.Token.Filler

/-!
# Expressions at other places

The tokens of an expression may stand in another text, at other offsets and before other tokens
(`Placement`).  They show the same source there if the text between them is the same and no `<`
among them is taken for the beginning of type arguments (`Placement.Shows`).

A reader *settles* on an answer for some tokens if it answers the same wherever they stand, but for
the offsets.  The items between brackets and the members between braces are lists of parts; a reader
that settles on each part settles on the list (`exists_list`).
-/

namespace Scaffold

/-! ### Offsets -/

/-- The span, at the offsets that `f` gives for its own. -/
def Span.relocated (f : Nat → Nat) (s : Span) : Span := ⟨f s.start, f s.stop⟩

mutual

/-- The expression, at the offsets that `f` gives for its own. -/
def Node.relocated (f : Nat → Nat) : Node → Node
  | .literal s v => .literal (s.relocated f) v
  | .array s ns => .array (s.relocated f) (Node.relocatedAll f ns)
  | .object s ms => .object (s.relocated f) (Member.relocatedAll f ms)
  | .chain s head segments text =>
    .chain (s.relocated f) head (Segment.relocatedAll f segments) text
  | .verbatim s text => .verbatim (s.relocated f) text

/-- Several expressions. -/
def Node.relocatedAll (f : Nat → Nat) : List Node → List Node
  | [] => []
  | n :: ns => n.relocated f :: Node.relocatedAll f ns

/-- A member of an object. -/
def Member.relocated (f : Nat → Nat) : Member → Member
  | .property key n => .property key (n.relocated f)
  | .spread text => .spread text

/-- Several members. -/
def Member.relocatedAll (f : Nat → Nat) : List Member → List Member
  | [] => []
  | m :: ms => m.relocated f :: Member.relocatedAll f ms

/-- A link of a chain. -/
def Segment.relocated (f : Nat → Nat) : Segment → Segment
  | .access name => .access name
  | .call ns => .call (Node.relocatedAll f ns)

/-- Several links. -/
def Segment.relocatedAll (f : Nat → Nat) : List Segment → List Segment
  | [] => []
  | s :: ss => s.relocated f :: Segment.relocatedAll f ss

end

variable {f : Nat → Nat}

theorem Node.relocatedAll_eq (ns : List Node) : relocatedAll f ns = ns.map (relocated f) := by
  induction ns with
  | nil => rfl
  | cons n ns ih => rw [relocatedAll, ih, List.map_cons]

theorem Member.relocatedAll_eq (ms : List Member) : relocatedAll f ms = ms.map (relocated f) := by
  induction ms with
  | nil => rfl
  | cons m ms ih => rw [relocatedAll, ih, List.map_cons]

theorem Segment.relocatedAll_eq (ss : List Segment) :
    relocatedAll f ss = ss.map (relocated f) := by
  induction ss with
  | nil => rfl
  | cons s ss ih => rw [relocatedAll, ih, List.map_cons]

theorem Node.span_relocated (n : Node) : (n.relocated f).span = n.span.relocated f := by
  cases n <;> rfl

mutual

theorem Node.relocated_id : (n : Node) → n.relocated id = n
  | .literal _ _ | .verbatim _ _ => rfl
  | .array s ns => congrArg (Node.array s) (Node.relocatedAll_id ns)
  | .object s ms => congrArg (Node.object s) (Member.relocatedAll_id ms)
  | .chain s head segments text =>
    congrArg (Node.chain s head · text) (Segment.relocatedAll_id segments)

theorem Node.relocatedAll_id : (ns : List Node) → Node.relocatedAll id ns = ns
  | [] => rfl
  | n :: ns => congrArg₂ List.cons n.relocated_id (Node.relocatedAll_id ns)

theorem Member.relocated_id : (m : Member) → m.relocated id = m
  | .property key n => congrArg (Member.property key) n.relocated_id
  | .spread _ => rfl

theorem Member.relocatedAll_id : (ms : List Member) → Member.relocatedAll id ms = ms
  | [] => rfl
  | m :: ms => congrArg₂ List.cons m.relocated_id (Member.relocatedAll_id ms)

theorem Segment.relocated_id : (s : Segment) → s.relocated id = s
  | .access _ => rfl
  | .call ns => congrArg Segment.call (Node.relocatedAll_id ns)

theorem Segment.relocatedAll_id : (ss : List Segment) → Segment.relocatedAll id ss = ss
  | [] => rfl
  | s :: ss => congrArg₂ List.cons s.relocated_id (Segment.relocatedAll_id ss)

end

namespace Token

@[simp] theorem kind_relocated (t : Token) : (t.relocated f).kind = t.kind := rfl

@[simp] theorem value_relocated (t : Token) : (t.relocated f).value = t.value := rfl

@[simp] theorem start_relocated (t : Token) : (t.relocated f).start = f t.start := rfl

@[simp] theorem stop_relocated (t : Token) : (t.relocated f).stop = f t.stop := rfl

@[simp] theorem isPunct_relocated (t : Token) (mark : Text) :
    (t.relocated f).isPunct mark = t.isPunct mark := rfl

end Token

namespace Expr

variable {w : Region} {p : Place} {t u c : Token} {ts us vs rest : List Token}
  {source close : Text}

theorem IsPlain.relocated (h : IsPlain t) : IsPlain (t.relocated f) :=
  ⟨h.kind, h.opener, h.closer, h.separator⟩

theorem Brackets.relocated (h : Brackets t u) : Brackets (t.relocated f) (u.relocated f) := by
  cases h with
  | parentheses ho hc => exact .parentheses ho hc
  | square ho hc => exact .square ho hc
  | braces ho hc => exact .braces ho hc

theorem Balanced.relocated (h : Balanced w p us) : Balanced w p (us.map (Token.relocated f)) := by
  induction h with
  | nil => exact .nil
  | plain ht hless _ ih => exact .plain ht.relocated hless ih
  | comma hw ht _ ih => exact .comma hw ht ih
  | semicolon hw ht _ ih => exact .semicolon hw ht ih
  | group hbrackets _ _ ihbody ih =>
    rw [List.map_cons, List.map_append, List.map_cons]
    exact .group hbrackets.relocated ihbody ih

/-! ### Placements -/

/-- The offsets of the tokens. -/
def offsets (ts : List Token) : List Nat := ts.flatMap fun t => [t.start, t.stop]

theorem mem_offsets_start (h : t ∈ ts) : t.start ∈ offsets ts :=
  List.mem_flatMap.2 ⟨t, h, by simp⟩

theorem mem_offsets_stop (h : t ∈ ts) : t.stop ∈ offsets ts :=
  List.mem_flatMap.2 ⟨t, h, by simp⟩

/-- A name or a closing parenthesis: what stands behind may be called. -/
def IsCallable (t : Token) : Prop := t.kind = .ident ∨ t.isPunct ")" = true

/-- Before the tokens `rest`, no `<` among `us` is taken for the beginning of type arguments. -/
def Compares (us rest : List Token) : Prop := ∀ a t l b, us = a ++ t :: l :: b → IsCallable t →
  l.isPunct "<" = true → skipTypeArguments 0 (l :: (b ++ rest)) = none

theorem Compares.left (h : Compares (us ++ vs) rest) : Compares us (vs ++ rest) :=
  fun a t l b hus ht hl => by
    have := h a t l (b ++ vs) (by simp [hus]) ht hl
    rwa [List.append_assoc] at this

theorem Compares.right (us : List Token) (h : Compares (us ++ vs) rest) : Compares vs rest :=
  fun a t l b hvs ht hl => h (us ++ a) t l b (by simp [hvs]) ht hl

theorem compares_cons : Compares (u :: us) rest ↔
    (IsCallable u → nextIs us "<" = true → skipTypeArguments 0 (us ++ rest) = none) ∧
      Compares us rest := by
  constructor
  · refine fun h => ⟨fun hu hless => ?_, h.right [u]⟩
    cases us with
    | nil => cases hless
    | cons l b => exact h [] u l b rfl hu hless
  · rintro ⟨hfirst, h⟩ a t l b hus ht hl
    cases a with
    | nil =>
      obtain ⟨rfl, rfl⟩ := List.cons.inj hus
      exact hfirst ht hl
    | cons x a => exact h a t l b (List.cons.inj hus).2 ht hl

instance (t : Token) : Decidable (IsCallable t) :=
  inferInstanceAs (Decidable (_ ∨ _))

instance Compares.decidable : (us rest : List Token) → Decidable (Compares us rest)
  | [], _ => isTrue fun a _ _ _ h => by cases a <;> cases h
  | _ :: us, rest =>
    have := Compares.decidable us rest
    decidable_of_iff _ compares_cons.symm

/-- Where there is no `<`, none is taken for anything. -/
theorem compares_of_not_less (h : ∀ u ∈ us, u.isPunct "<" = false) (rest : List Token) :
    Compares us rest := fun a t l b hus _ hl => by
  have hl' := h l (by simp [hus])
  rw [hl] at hl'
  cases hl'

/-- A place for tokens. -/
structure Placement where
  /-- The text that they stand in. -/
  text : Text
  /-- Where an offset of theirs is found there. -/
  offset : Nat → Nat
  /-- The tokens behind them. -/
  behind : List Token

namespace Placement

variable {s : Placement}

/-- The tokens at the place, and those behind. -/
def tokens (s : Placement) (us : List Token) : List Token :=
  us.map (Token.relocated s.offset) ++ s.behind

/-- The place in front of the tokens. -/
def before (s : Placement) (us : List Token) : Placement := { s with behind := s.tokens us }

@[simp] theorem tokens_nil (s : Placement) : s.tokens [] = s.behind := rfl

@[simp] theorem tokens_cons (s : Placement) (u : Token) (us : List Token) :
    s.tokens (u :: us) = u.relocated s.offset :: s.tokens us := rfl

theorem tokens_append (s : Placement) (us vs : List Token) :
    s.tokens (us ++ vs) = (s.before vs).tokens us := by
  simp [tokens, before]

/-- An expression ends at the place. -/
def Ends (s : Placement) : Prop := ∃ t rest, s.behind = t :: rest ∧ Stops t.lexeme

/-- What ends an expression is no mark of another sort. -/
theorem Ends.nextIs_tokens (h : s.Ends) {mark : Text} (hm : ¬ Stops (.punct, mark)) :
    nextIs (s.tokens us) mark = nextIs us mark := by
  obtain ⟨t, rest, hbehind, ht⟩ := h
  cases us with
  | nil => rw [tokens_nil, hbehind, not_nextIs ht hm]; rfl
  | cons u us => rfl

theorem Ends.nextKind_tokens (h : s.Ends) (kind : TokenKind) (heof : kind ≠ .eof)
    (hpunct : kind ≠ .punct) : nextKind (s.tokens us) kind = nextKind us kind := by
  obtain ⟨t, rest, hbehind, ht⟩ := h
  cases us with
  | nil =>
    have hkind : t.kind ≠ kind := by
      rintro rfl
      exact ht.elim heof fun ht => hpunct ht.1
    rw [tokens_nil, hbehind]
    exact decide_eq_false hkind
  | cons u us => rfl

/-- The tokens show the same source at the place. -/
structure Shows (s : Placement) (source : Text) (us : List Token) : Prop where
  /-- Between two offsets of theirs stands the same text. -/
  slices : ∀ x ∈ offsets us, ∀ y ∈ offsets us,
    s.text.slice (s.offset x) (s.offset y) = source.slice x y
  /-- No `<` is taken for the beginning of type arguments. -/
  compares : Compares (us.map (Token.relocated s.offset)) s.behind

theorem Shows.left (h : s.Shows source (us ++ vs)) : (s.before vs).Shows source us where
  slices x hx y hy := by
    refine h.slices x ?_ y ?_ <;> rw [offsets, List.flatMap_append]
    · exact List.mem_append_left _ hx
    · exact List.mem_append_left _ hy
  compares := by
    have := h.compares
    rw [List.map_append] at this
    exact this.left

theorem Shows.right (us : List Token) (h : s.Shows source (us ++ vs)) : s.Shows source vs where
  slices x hx y hy := by
    refine h.slices x ?_ y ?_ <;> rw [offsets, List.flatMap_append]
    · exact List.mem_append_right _ hx
    · exact List.mem_append_right _ hy
  compares := by
    have := h.compares
    rw [List.map_append] at this
    exact this.right _

end Placement

/-! ### What begins an expression -/

theorem stops_separator (h : t.isPunct "," = true ∨ t.isPunct ";" = true) : Stops t.lexeme := by
  rcases h with h | h <;> rw [isPunct_iff.1 h] <;> decide

theorem not_isPunct_of_stops (ht : Stops t.lexeme) {mark : Text} (hm : ¬ Stops (.punct, mark)) :
    t.isPunct mark = false :=
  Bool.eq_false_iff.2 fun h => hm (isPunct_iff.1 h ▸ ht)

/-- A separator is no closing bracket. -/
theorem not_isPunct_of_separator (h : t.isPunct "," = true ∨ t.isPunct ";" = true)
    (hclose : isCloser close = true) : t.isPunct close = false := by
  refine Bool.eq_false_iff.2 fun hc => ?_
  have hvalue := (isPunct_eq_true.1 hc).2
  rcases h with h | h <;>
    exact absurd (hvalue.symm.trans (isPunct_eq_true.1 h).2) fun heq => by
      rw [heq] at hclose
      exact absurd hclose (by decide)

theorem Balanced.begins (h : Balanced .expression p (u :: us)) : Begins u.lexeme := by
  generalize hts : u :: us = ts at h
  cases h with
  | nil => cases hts
  | plain ht =>
    obtain rfl := (List.cons.inj hts).1
    rintro (hkind | ⟨hkind, hvalue⟩)
    · exact ht.kind hkind
    · rcases hvalue with hvalue | hvalue | hvalue
      · exact ht.separator hkind (.inl hvalue)
      · exact ht.separator hkind (.inr hvalue)
      · have hcloser : isCloser u.value = true := hvalue
        rw [ht.closer hkind] at hcloser
        cases hcloser
  | comma hw => exact absurd rfl hw
  | semicolon hw => exact absurd rfl hw
  | group hbrackets =>
    obtain rfl := (List.cons.inj hts).1
    cases hbrackets with
    | parentheses ho | square ho | braces ho =>
      rw [isPunct_iff.1 ho]
      decide

theorem Place.next_of_kind (h : t.kind ≠ .punct) (p : Place) (hp : p ≠ .member) :
    p.next t = .operator := by
  rw [next, if_neg, if_neg fun h => hp h.1]
  simp [Expr.expectsOperand, Token.isPunct, h]

theorem Place.next_of_isKey (h : IsKey t) : Place.member.next t = .key := by
  have hkind : t.kind ≠ .punct := fun hk => by simp [IsKey, hk] at h
  rw [next, if_neg, if_pos ⟨rfl, h⟩]
  simp [Expr.expectsOperand, Token.isPunct, hkind]

/-- What is left of an expression behind a token that opens no bracket. -/
theorem Balanced.behind (h : Balanced .expression p (t :: us))
    (ht : t.kind = .punct → closerOf? t.value = none) : Balanced .expression (p.next t) us := by
  generalize hts : t :: us = ts at h
  cases h with
  | nil => cases hts
  | plain _ _ h =>
    obtain ⟨rfl, rfl⟩ := List.cons.inj hts
    exact h
  | comma hw => exact absurd rfl hw
  | semicolon hw => exact absurd rfl hw
  | group hbrackets =>
    obtain rfl := (List.cons.inj hts).1
    obtain ⟨hkind, -, hcloser⟩ := hbrackets.opens
    rw [ht hkind] at hcloser
    cases hcloser

theorem Balanced.tail (h : Balanced .expression p (t :: us)) (ht : t.kind ≠ .punct)
    (hp : p ≠ .member) : Balanced .expression .operator us :=
  Place.next_of_kind ht p hp ▸ h.behind fun hkind => absurd hkind ht

/-! ### Lists of parts -/

section Lists

variable {α : Type} {part : Text → List Token → Except NumeralError (List α × List Token)}
  {list : Text → List Token → FoundParts α} {g : (Nat → Nat) → α → α}

/-- The reader goes on at the tokens: they begin with neither the bracket `close` nor the end of the
source. -/
def GoesOn (close : Text) (ts : List Token) : Prop :=
  ∃ t rest, ts = t :: rest ∧ t.isPunct close = false ∧ t.kind ≠ .eof

theorem ReadsParts.part_of_goesOn {part : List Token → Except NumeralError (List α × List Token)}
    {list : List Token → FoundParts α} (h : ReadsParts close part list) (hts : GoesOn close ts) :
    list ts = (part ts).bind fun r => goOn close list r.1 r.2 := by
  obtain ⟨t, rest, rfl, ht, hkind⟩ := hts
  exact h.step rest ht hkind

theorem GoesOn.tokens (h : GoesOn close ts) (s : Placement) : GoesOn close (s.tokens ts) := by
  obtain ⟨t, rest, rfl, ht, hkind⟩ := h
  exact ⟨t.relocated s.offset, s.tokens rest, rfl, ht, hkind⟩

/-- The reader goes on at what begins an expression, and at a separator. -/
theorem Balanced.goesOn (h : Balanced .expression p us) (hclose : isCloser close = true)
    (ht : us = [] → t.isPunct "," = true ∨ t.isPunct ";" = true) : GoesOn close (us ++ [t]) := by
  cases us with
  | nil =>
    have hkind : t.kind = .punct := (ht rfl).elim (fun h => (isPunct_eq_true.1 h).1)
      fun h => (isPunct_eq_true.1 h).1
    exact ⟨t, [], rfl, not_isPunct_of_separator (ht rfl) hclose, by rw [hkind]; nofun⟩
  | cons u us =>
    exact ⟨u, us ++ [t], rfl, h.begins.not_isPunct (.inr hclose), h.begins.kind_ne⟩

/-- What the reader of parts answers for `us` before `t`, wherever they stand. -/
def PartSettles (part : Text → List Token → Except NumeralError (List α × List Token))
    (g : (Nat → Nat) → α → α) (source : Text) (us : List Token) (t : Token) : Prop :=
  ∃ r : Except NumeralError (List α), ∀ s : Placement, s.Shows source (us ++ [t]) →
    part s.text (s.tokens (us ++ [t])) = r.map fun as => (as.map (g s.offset), s.tokens [t])

/-- What the reader of lists answers for `body` before the bracket `c`, wherever they stand. -/
def ListSettles (list : Text → List Token → FoundParts α) (g : (Nat → Nat) → α → α) (source : Text)
    (body : List Token) (c : Token) : Prop :=
  ∃ r : Except NumeralError (Option (List α)), ∀ s : Placement, s.Shows source (body ++ [c]) →
    list s.text (s.tokens (body ++ [c])) =
      r.map (Option.map fun as => ((as.map (g s.offset), s.offset c.stop), s.behind))

/-- **Balanced tokens before a bracket are read as a list**, or as none, wherever they stand, if
their parts are. -/
theorem exists_list (hlist : ∀ text, ReadsParts close (part text) (list text))
    (hclose : isCloser close = true) (hc : c.isPunct close = true) {body : List Token}
    (hpart : ∀ us t, us.length ≤ body.length → Balanced .expression w.start us → Stops t.lexeme →
      GoesOn close (us ++ [t]) → PartSettles part g source us t)
    (hbody : Balanced w w.start body) : ListSettles list g source body c := by
  have hcomma : c.isPunct "," = false := Bool.eq_false_iff.2 fun h => by
    rw [not_isPunct_of_separator (.inl h) hclose] at hc
    cases hc
  induction hn : body.length using Nat.strong_induction_on generalizing body with
  | _ n ih =>
  subst hn
  rcases hbody.split with hexpression | ⟨us, t, vs, rfl, hus, hw, hrest⟩
  · by_cases hnil : body = []
    · subst hnil
      exact ⟨.ok (some []), fun s _ => (hlist s.text).ends s.behind hc⟩
    · -- one part, before the closing bracket
      have hon := hexpression.goesOn (t := c) hclose fun h => absurd h hnil
      obtain ⟨r, hr⟩ := hpart body c (Nat.le_refl _) hexpression (stops_closer hclose hc) hon
      refine ⟨r.map some, fun s hs => ?_⟩
      rw [(hlist s.text).part_of_goesOn (hon.tokens s), hr s hs]
      cases r with
      | error e => rfl
      | ok as => simp [Except.map, Except.bind, goOn, hcomma, hc]
  · have hsep : t.isPunct "," = true ∨ t.isPunct ";" = true := hrest.imp_left (·.1)
    have hon := hus.goesOn hclose fun _ => hsep
    have hlength : us.length ≤ (us ++ t :: vs).length := by simp
    obtain ⟨r, hr⟩ := hpart us t hlength hus (stops_separator hsep) hon
    have happend : us ++ t :: vs ++ [c] = us ++ [t] ++ (vs ++ [c]) := by simp
    rw [ListSettles, happend]
    have hread : ∀ s : Placement, s.Shows source (us ++ [t] ++ (vs ++ [c])) →
        list s.text (s.tokens (us ++ [t] ++ (vs ++ [c]))) = r.bind fun as =>
          goOn close (list s.text) (as.map (g s.offset))
            (t.relocated s.offset :: s.tokens (vs ++ [c])) := fun s hs => by
      have hfirst : part s.text ((s.before (vs ++ [c])).tokens (us ++ [t])) = _ := hr _ hs.left
      rw [s.tokens_append, (hlist s.text).part_of_goesOn (hon.tokens _), hfirst]
      cases r <;> rfl
    rcases hrest with ⟨hcomma', hvs⟩ | hsemicolon
    · -- a part, and the list behind the comma
      have hlt : vs.length < (us ++ t :: vs).length := by simp; omega
      obtain ⟨r', hr'⟩ := ih vs.length hlt (fun us' t' hle => hpart us' t' (by omega)) hvs rfl
      refine ⟨r.bind fun as => r'.map (Option.map (as ++ ·)), fun s hs => ?_⟩
      rw [hread s hs]
      cases r with
      | error e => rfl
      | ok as =>
        have hlast := hr' s (hs.right _)
        simp only [Except.bind, goOn, Token.isPunct_relocated, hcomma', if_true, hlast]
        cases r' with
        | error e => rfl
        | ok o => cases o <;> simp [Except.map]
    · -- no list goes on behind a semicolon
      have hnot : t.isPunct "," = false := by
        simp +decide [Token.isPunct, (isPunct_eq_true.1 hsemicolon).2]
      refine ⟨r.map fun _ => none, fun s hs => ?_⟩
      rw [hread s hs]
      cases r with
      | error e => rfl
      | ok as =>
        simp [Except.map, Except.bind, goOn, hnot, not_isPunct_of_separator hsep hclose]

end Lists

end Expr

end Scaffold
