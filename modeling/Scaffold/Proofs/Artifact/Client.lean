import Mathlib.Data.List.Infix
import Scaffold.Proofs.Text.Capitals
import Scaffold.Proofs.Token.Brackets

/-!
# Calls of the client

Generated modules reach the server by calls of methods of `apiClient`.

* `Artifact.clientArguments` finds the calls of a method among the tokens of a module, and gives the
  first argument of each.
* `Artifact.Aside` says of a text that its tokens call nothing, and are part of no call together
  with those around it.
* `Artifact.Requests` says which calls the rest of a module makes.  It is built up from the end of
  the module, by texts that call nothing (`Requests.aside`) and calls (`Requests.call`).
-/

namespace Scaffold

open CodePoint

/-! ### Code with known tokens -/

/-- What the tokens of a text are, without the end. -/
def Text.lexemes (t : Text) : List Lexeme :=
  ((tokenize t).toOption.getD []).dropLast.map Token.lexeme

/-- Code is read as its tokens wherever it stands. -/
theorem lexesAs_code {t : Text} (h : t.IsCode) : LexesAs Interrupts t t.lexemes := by
  obtain ⟨ls, hls, -⟩ := ShowsBrackets.code h
  obtain ⟨ts, rfl, htokens⟩ := hls.tokenize
  rw [Text.lexemes, htokens]
  simpa [Except.toOption] using hls

theorem isIdentStart_toUpper {c : CodePoint} (h : isIdentStart c = true) :
    ∃ d, c.toUpper = [d] ∧ isIdentStart d = true := by
  have hall : ∀ n : Fin 128, isWordLetter (Char.ofNat n) = true →
      isIdentStart (Char.ofNat n) = true → (toUpper (Char.ofNat n)).length = 1 ∧
        (toUpper (Char.ofNat n)).all isIdentStart = true := by decide +kernel
  obtain ⟨hlength, hstart⟩ := of_isIdentPart (P := fun c => isIdentStart c = true →
    c.toUpper.length = 1 ∧ c.toUpper.all isIdentStart = true) (by decide +kernel) hall
    (isIdentPart_of_isIdentStart h) h
  obtain ⟨d, hd⟩ := List.length_eq_one_iff.1 hlength
  exact ⟨d, hd, by simpa [hd] using hstart⟩

theorem Text.isIdent_capitalize {t : Text} (h : t.isIdent = true) :
    t.capitalize.isIdent = true := by
  cases t with
  | nil => cases h
  | cons c t =>
    rw [isIdent, Bool.and_eq_true] at h
    obtain ⟨d, hd, hstart⟩ := isIdentStart_toUpper h.1
    rw [capitalize, hd, List.singleton_append, isIdent, hstart, h.2]
    rfl

namespace Artifact

/-! ### Calls of the client -/

/-- The methods of the client that a collection calls. -/
def clientMethods : List Text := ["get", "post", "patch", "delete"]

/-- The point before a member. -/
def point : Lexeme := (.punct, ".")

/-- The parenthesis before arguments. -/
def opening : Lexeme := (.punct, "(")

/-- What the call of a method of the client begins with. -/
def clientCall (method : Text) : List Lexeme := [(.ident, "apiClient"), point, (.ident, method)]

/-- The token behind the next opening parenthesis. -/
def nextArgument? : List Token → Option Token
  | [] => none
  | t :: ts => if t.lexeme = opening then ts.head? else nextArgument? ts

/-- The tokens that the first arguments of the calls of a method of the client begin with. -/
def clientArguments (method : Text) : List Token → List Token
  | [] => []
  | t :: ts =>
    if clientCall method <+: (t :: ts).map Token.lexeme then
      (nextArgument? ts).toList ++ clientArguments method ts
    else clientArguments method ts

/-- The tokens call no method of the client, and the tokens around them are part of no such call
together with them. -/
structure CallsNothing (ls : List Lexeme) : Prop where
  /-- No call begins and ends among them. -/
  inside : ∀ method ∈ clientMethods, ¬ clientCall method <:+: ls
  /-- They do not go on with a member. -/
  head : ls.head? ≠ some point
  /-- No member comes behind them. -/
  last : ls.getLast? ≠ some point

theorem callsNothing_iff {ls : List Lexeme} : CallsNothing ls ↔
    (∀ method ∈ clientMethods, ¬ clientCall method <:+: ls) ∧
      ls.head? ≠ some point ∧ ls.getLast? ≠ some point :=
  ⟨fun h => ⟨h.inside, h.head, h.last⟩, fun ⟨h₁, h₂, h₃⟩ => ⟨h₁, h₂, h₃⟩⟩

instance : DecidablePred CallsNothing := fun _ => decidable_of_iff _ callsNothing_iff.symm

variable {ls ms : List Lexeme}

/-- Three tokens at the beginning of two parts are in the first one, or the second of them stands
where the parts meet. -/
theorem prefix_append_cases {a p m l : Lexeme} (h : [a, p, m] <+: l :: ls ++ ms) :
    [a, p, m] <+: l :: ls ∨ ms.head? = some p ∨ (l :: ls).getLast? = some p := by
  obtain ⟨vs, heq⟩ := h
  rcases ls with _ | ⟨y, _ | ⟨z, ls⟩⟩
  · have hms : ms = p :: m :: vs := (List.cons.inj heq).2.symm
    exact .inr (.inl (by rw [hms]; rfl))
  · have hy : p = y := (List.cons.inj (List.cons.inj heq).2).1
    exact .inr (.inr (by simp [hy]))
  · obtain ⟨rfl, htail⟩ := List.cons.inj heq
    obtain ⟨rfl, htail'⟩ := List.cons.inj htail
    obtain ⟨rfl, -⟩ := List.cons.inj htail'
    exact .inl ⟨ls, rfl⟩

theorem infix_append_cases {a p m : Lexeme} (h : [a, p, m] <:+: ls ++ ms) :
    [a, p, m] <:+: ls ∨ [a, p, m] <:+: ms ∨ ms.head? = some p ∨ ls.getLast? = some p := by
  induction ls with
  | nil => exact .inr (.inl h)
  | cons l ls ih =>
    rcases List.infix_cons_iff.1 h with hbegins | hin
    · exact (prefix_append_cases hbegins).imp List.IsPrefix.isInfix .inr
    · rcases ih hin with hin | hin | hhead | hlast
      · exact .inl (hin.trans (List.suffix_cons l ls).isInfix)
      · exact .inr (.inl hin)
      · exact .inr (.inr (.inl hhead))
      · exact .inr (.inr (.inr (by rw [List.getLast?_cons, hlast]; rfl)))

theorem CallsNothing.append (h : CallsNothing ls) (h' : CallsNothing ms) :
    CallsNothing (ls ++ ms) := by
  refine ⟨fun method hmethod hcall => ?_, ?_, ?_⟩
  · rcases infix_append_cases hcall with hcall | hcall | hhead | hlast
    · exact h.inside method hmethod hcall
    · exact h'.inside method hmethod hcall
    · exact h'.head hhead
    · exact h.last hlast
  · cases ls with
    | nil => exact h'.head
    | cons l ls => exact h.head
  · rw [List.getLast?_append]
    cases hlast : ms.getLast? with
    | none => exact h.last
    | some l =>
      rw [Option.some_or, ← hlast]
      exact h'.last

theorem callsNothing_nil : CallsNothing [] := by decide

theorem callsNothing_singleton {l : Lexeme} (h : l ≠ point) : CallsNothing [l] := by
  refine ⟨fun method _ hcall => ?_, by simpa using h, by simpa using h⟩
  simpa [clientCall] using hcall.length_le

/-- A member that is no method of the client. -/
theorem callsNothing_member {x y : Text} (h : x ≠ Text.ofString "apiClient" ∨ y ∉ clientMethods) :
    CallsNothing [(.ident, x), point, (.ident, y)] := by
  refine ⟨fun method hmethod hcall => ?_, by simp [point], by simp [point]⟩
  have heq := hcall.eq_of_length rfl
  simp only [clientCall, List.cons.injEq, Prod.mk.injEq, true_and, and_true] at heq
  obtain ⟨rfl, rfl⟩ := heq
  exact h.elim (fun h => h rfl) fun h => h hmethod

variable {ts us : List Token} {method : Text}

theorem clientArguments_skip (h : ¬ clientCall method <:+: ts.map Token.lexeme)
    (hlast : (ts.map Token.lexeme).getLast? ≠ some point)
    (hus : (us.map Token.lexeme).head? ≠ some point) :
    clientArguments method (ts ++ us) = clientArguments method us := by
  induction ts with
  | nil => rfl
  | cons t ts ih =>
    have hnot : ¬ clientCall method <+: (t :: (ts ++ us)).map Token.lexeme := by
      intro hbegins
      rw [← List.cons_append, List.map_append, List.map_cons] at hbegins
      rcases prefix_append_cases hbegins with hbegins | hhead | hlast'
      · exact h hbegins.isInfix
      · exact hus hhead
      · exact hlast hlast'
    rw [List.cons_append, clientArguments, if_neg hnot]
    refine ih (fun hin => h (hin.trans (List.suffix_cons _ _).isInfix)) fun hlast' => hlast ?_
    rw [List.map_cons, List.getLast?_cons, hlast']
    rfl

theorem nextArgument?_append {before : List Lexeme}
    (hts : ts.map Token.lexeme = before ++ [opening]) (h : opening ∉ before) (a : Token)
    (us : List Token) : nextArgument? (ts ++ a :: us) = some a := by
  induction ts generalizing before with
  | nil => simp at hts
  | cons t ts ih =>
    rw [List.cons_append, nextArgument?]
    cases before with
    | nil =>
      obtain ⟨ht, hnil⟩ := List.cons.inj hts
      rw [if_pos ht, List.map_eq_nil_iff.1 hnil]
      rfl
    | cons l before =>
      obtain ⟨rfl, hts'⟩ := List.cons.inj hts
      rw [List.mem_cons, not_or] at h
      rw [if_neg (Ne.symm h.1), ih hts' h.2]

/-- The tokens of a call up to its argument; type arguments may stand behind the method. -/
def callLexemes (method : Text) (typeArguments : List Lexeme) : List Lexeme :=
  clientCall method ++ (typeArguments ++ [opening])

/-- A call is found with its argument. -/
theorem clientArguments_call {called : Text} {typeArguments : List Lexeme} {a : Token}
    (hts : ts.map Token.lexeme = callLexemes called typeArguments)
    (htypes : point ∉ typeArguments ∧ opening ∉ typeArguments) (ha : a.lexeme ≠ point) :
    clientArguments method (ts ++ a :: us) =
      (if method = called then [a] else []) ++ clientArguments method (a :: us) := by
  cases ts with
  | nil => cases hts
  | cons c ts =>
    obtain ⟨hc, hrest⟩ := List.cons.inj hts
    change ts.map Token.lexeme = point :: (.ident, called) :: (typeArguments ++ [opening]) at hrest
    have hident {l : Lexeme} (hl : l.1 = .punct) : l ≠ (.ident, called) := by
      rintro rfl
      cases hl
    have hpoint : point ∉ (.ident, called) :: (typeArguments ++ [opening]) := by
      simp only [List.mem_cons, List.mem_append, List.not_mem_nil, or_false, not_or]
      exact ⟨hident rfl, htypes.1, by decide⟩
    have hopening : opening ∉ point :: (.ident, called) :: typeArguments := by
      simp only [List.mem_cons, not_or]
      exact ⟨by decide, hident rfl, htypes.2⟩
    have hskip : clientArguments method (ts ++ a :: us) = clientArguments method (a :: us) := by
      refine clientArguments_skip (fun hcall => ?_) ?_ (by simpa using ha)
      · rw [hrest] at hcall
        rcases List.infix_cons_iff.1 hcall with ⟨rest, hbegins⟩ | hin
        · cases hbegins
        · exact hpoint (hin.subset (by simp [clientCall]))
      · rw [hrest, ← List.cons_append, ← List.cons_append, List.getLast?_concat]
        decide
    have hcall : clientCall method <+: (c :: (ts ++ a :: us)).map Token.lexeme ↔
        method = called := by
      rw [List.map_cons, List.map_append, hrest, hc, clientCall]
      simp
    rw [List.cons_append, clientArguments, hskip, nextArgument?_append hrest hopening]
    by_cases hmethod : method = called
    · rw [if_pos (hcall.2 hmethod), if_pos hmethod]
      rfl
    · rw [if_neg (hcall.not.2 hmethod), if_neg hmethod]
      rfl

/-! ### Code without calls -/

/-- A member of something. -/
theorem lexesAs_member {x y : Text} (hx : x.isIdent = true) (hy : y.isIdent = true) :
    LexesAs (fun c => isIdentPart c = false) (x ++ (.scalar '.' :: y))
      [(.ident, x), point, (.ident, y)] := by
  have hpoint :
      LexesAs (fun c => isIdentPart c = false) (.scalar '.' :: y) [point, (.ident, y)] := by
    cases y with
    | nil => cases hy
    | cons c y => exact lexesAs_point.append_cons (Bool.and_eq_true_iff.1 hy).1 (lexesAs_ident hy)
  exact (lexesAs_ident hx).append_cons (by decide) hpoint

/-- Before a code point that satisfies `p`, the text is read as tokens that call nothing. -/
def Aside (p : CodePoint → Prop) (t : Text) : Prop := ∃ ls, LexesAs p t ls ∧ CallsNothing ls

namespace Aside

variable {p q : CodePoint → Prop} {t u : Text}

theorem append (h : Aside p t) (h' : Aside q u)
    (hu : ∀ rest : Text, (∀ c ∈ rest.head?, q c) → ∀ c ∈ (u ++ rest).head?, p c) :
    Aside q (t ++ u) := by
  obtain ⟨ls, hls, hnone⟩ := h
  obtain ⟨ms, hms, hnone'⟩ := h'
  exact ⟨ls ++ ms, hls.append hms hu, hnone.append hnone'⟩

theorem append_anywhere (h : Aside (fun _ => True) t) (h' : Aside q u) : Aside q (t ++ u) :=
  h.append h' fun _ _ _ _ => trivial

/-- A text goes on with one that begins with a break. -/
theorem append_break (h : Aside Interrupts t) (h' : Aside q u)
    (hu : u ≠ [] ∧ IsBreak u) : Aside q (t ++ u) := by
  refine h.append h' fun rest _ c hc => hu.2 c ?_
  cases u with
  | nil => exact absurd rfl hu.1
  | cons d u => exact hc

/-- Code without calls. -/
theorem code (h : t.IsCode) (hnone : CallsNothing t.lexemes) : Aside Interrupts t :=
  ⟨t.lexemes, lexesAs_code h, hnone⟩

/-- Code without calls, and a blank. -/
theorem phrase (h : t.IsCode) (hnone : CallsNothing (Text.lexemes t.dropLast))
    (hlast : t.getLast? = some (.scalar ' ')) : Aside (fun _ => True) t := by
  have hblank : Aside (fun _ => True) [.scalar ' '] :=
    ⟨[], lexesAs_blank (by decide), callsNothing_nil⟩
  rw [← List.dropLast_append_getLast? _ hlast]
  exact (code (fun c hc => h c ((List.dropLast_sublist t).subset hc)) hnone).append_break hblank
    ⟨by simp, isBreak_cons (by decide)⟩

theorem name {x : Text} (hx : x.isIdent = true) : Aside Interrupts x :=
  ⟨[(.ident, x)], (lexesAs_ident hx).mono fun _ h => h.name,
    callsNothing_singleton fun h => by cases congrArg Prod.fst h⟩

theorem literal (t : Text) : Aside (fun _ => True) t.literal :=
  ⟨[(.string, t)], lexesAs_literal t, callsNothing_singleton fun h => by cases congrArg Prod.fst h⟩

/-- A member of something, which is no method of the client. -/
theorem member {x y : Text} (hx : x.isIdent = true) (hy : y.isIdent = true)
    (h : x ≠ Text.ofString "apiClient" ∨ y ∉ clientMethods) :
    Aside Interrupts (x ++ (.scalar '.' :: y)) :=
  ⟨_, (lexesAs_member hx hy).mono fun _ h => h.name, callsNothing_member h⟩

/-- A line, with its line feed. -/
theorem line (h : Aside Interrupts t) : Aside (fun _ => True) (t ++ "\n") := by
  have hblank : Aside (fun _ => True) (Text.ofString "\n") :=
    ⟨[], lexesAs_blank (by decide), callsNothing_nil⟩
  exact h.append_break hblank ⟨by decide, isBreak_cons (by decide)⟩

theorem nil : Aside p [] := ⟨[], .nil, callsNothing_nil⟩

theorem unlines {lines : List Text} (h : ∀ l ∈ lines, Aside (fun _ => True) (l ++ "\n")) :
    Aside (fun _ => True) (Text.unlines lines) := by
  induction lines with
  | nil => exact nil
  | cons l lines ih =>
    rw [List.forall_mem_cons] at h
    rw [Text.unlines, List.flatMap_cons]
    exact h.1.append_anywhere (ih h.2)

end Aside

/-! ### The calls of a module -/

/-- A call of the client. -/
structure Request where
  /-- The method that is called. -/
  method : Text
  /-- What the first argument is read as. -/
  argument : Lexeme
  /-- What the first argument is written as. -/
  written : Text

/-- The token is the first argument of the call. -/
def Request.HasArgument (source : Text) (q : Request) (t : Token) : Prop :=
  t.lexeme = q.argument ∧ source.slice t.start t.stop = q.written

/-- A method that is called once is called with the argument. -/
theorem Request.exists_hasArgument {source method : Text} {requests : List Request} {q : Request}
    {arguments : List Token} (hq : requests.filter (·.method = method) = [q])
    (h : List.Forall₂ (HasArgument source) (requests.filter (·.method = method)) arguments) :
    ∃ t, arguments = [t] ∧ q.HasArgument source t := by
  rw [hq] at h
  obtain ⟨t, ts, hargument, hnil, rfl⟩ := List.forall₂_cons_left_iff.1 h
  rw [List.forall₂_nil_left_iff.1 hnil]
  exact ⟨t, rfl, hargument⟩

/-- The last part of the source makes the calls, in this order for each method, and no others. -/
def Requests (source t : Text) (requests : List Request) : Prop :=
  t <:+ source → ∀ operand, ∃ ts, tokensFrom source.length operand t = .ok ts ∧
    (ts.map Token.lexeme).head? ≠ some point ∧ ∀ method ∈ clientMethods,
      List.Forall₂ (Request.HasArgument source) (requests.filter (·.method = method))
        (clientArguments method ts)

namespace Requests

variable {source t u : Text} {p : CodePoint → Prop} {requests : List Request}

/-- The end of a module makes no calls. -/
theorem finish (h : Aside p t) : Requests source t [] := by
  obtain ⟨ls, hls, hnone⟩ := h
  intro _ operand
  obtain ⟨ts, operand', rfl, htokens⟩ := hls source.length operand [] nofun
  rw [List.append_nil, tokensFrom] at htokens
  refine ⟨_, htokens, ?_, fun method hmethod => ?_⟩
  · cases ts with
    | nil => simp [Token.lexeme, Token.endOf, point]
    | cons t ts => exact hnone.head
  · rw [clientArguments_skip (hnone.inside method hmethod) hnone.last
      (by simp [Token.lexeme, Token.endOf, point]), clientArguments, if_neg, clientArguments]
    · exact .nil
    · intro hcall
      simpa [clientCall] using hcall.length_le

theorem aside (h : Aside p u) (hu : ∀ c ∈ t.head?, p c) (ht : Requests source t requests) :
    Requests source (u ++ t) requests := by
  obtain ⟨ls, hls, hnone⟩ := h
  intro hsource operand
  obtain ⟨ts, operand', rfl, htokens⟩ := hls source.length operand t hu
  obtain ⟨us, hus, hhead, hcalls⟩ := ht ((List.suffix_append u t).trans hsource) operand'
  rw [hus] at htokens
  refine ⟨ts ++ us, htokens, ?_, fun method hmethod => ?_⟩
  · cases ts with
    | nil => exact hhead
    | cons t ts => exact hnone.head
  · rw [clientArguments_skip (hnone.inside method hmethod) hnone.last hhead]
    exact hcalls method hmethod

/-- A call, up to its first argument, and that argument. -/
theorem call {called w : Text} {typeArguments : List Lexeme} {l : Lexeme}
    (hu : LexesAs Interrupts u (callLexemes called typeArguments))
    (htypes : point ∉ typeArguments ∧ opening ∉ typeArguments) (hw : l.IsWrittenAs w)
    (hbreak : w ≠ [] ∧ IsBreak w) (hl : l.1 ≠ .ident ∧ l.1 ≠ .punct)
    (ht : Requests source t requests) :
    Requests source (u ++ (w ++ t)) (⟨called, l, w⟩ :: requests) := by
  intro hsource operand
  have hbehind := (List.suffix_append w t).trans ((List.suffix_append u (w ++ t)).trans hsource)
  obtain ⟨before, hbefore⟩ := (List.suffix_append u (w ++ t)).trans hsource
  have hinterrupts : ∀ c ∈ (w ++ t).head?, Interrupts c := by
    cases w with
    | nil => exact absurd rfl hbreak.1
    | cons c w => exact hbreak.2
  obtain ⟨ts, operand', hts, htokens⟩ := hu source.length operand _ hinterrupts
  obtain ⟨us, hus, -, hcalls⟩ :=
    ht hbehind (l.1.endsOperand l.2)
  have hlength : source.length = before.length + (w ++ t).length := by
    rw [← hbefore, List.length_append]
  rw [hw.tokensFrom operand' hlength, hus] at htokens
  refine ⟨_, htokens, ?_, fun method hmethod => ?_⟩
  · cases ts with
    | nil => cases hts
    | cons c ts =>
      rw [List.map_append, hts]
      simp [callLexemes, clientCall, point]
  · have hargument : Request.HasArgument source ⟨called, l, w⟩
        ⟨l.1, l.2, before.length, before.length + w.length⟩ :=
      ⟨rfl, by rw [← hbefore, slice_append]⟩
    have hskip :
        clientArguments method (⟨l.1, l.2, before.length, before.length + w.length⟩ :: us) =
          clientArguments method us := by
      rw [clientArguments, if_neg]
      intro hcall
      exact hl.1 (congrArg Prod.fst (List.cons_prefix_cons.1 hcall).1).symm
    have hnotPoint : Token.lexeme ⟨l.1, l.2, before.length, before.length + w.length⟩ ≠ point :=
      fun h => hl.2 (congrArg Prod.fst h)
    rw [clientArguments_call hts htypes hnotPoint, hskip]
    by_cases hcalled : method = called
    · rw [if_pos hcalled, List.filter_cons_of_pos (by simp [hcalled])]
      exact .cons hargument (hcalls method hmethod)
    · rw [if_neg hcalled, List.filter_cons_of_neg (by simpa using Ne.symm hcalled)]
      exact hcalls method hmethod

end Requests

end Artifact

end Scaffold
