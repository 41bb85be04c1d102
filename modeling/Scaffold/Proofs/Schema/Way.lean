import Mathlib.Data.Finset.Card
import Scaffold.Proofs.Schema.Agreement

/-!
# The way through the constants

A chain leads from constant to constant.  Its way begins with the chain itself, goes on with the
constant that the last name stands for, and stops where a chain begins with the namespace, with a
name that stands for nothing, or with a name that was on the way before (`Constants.IsWay`).  So it
ends where constants stand for each other or for themselves, too.

* A chain has one way, and `resolveChain` finds it (`Constants.isWay_iff`).
* The way has at most one chain more than there are constants (`length_resolveChain_le`).
* Only the last chain of a way can begin with the namespace (`Constants.IsWay.head_ne`), so that the
  constructor is that of the last chain (`constructorOf_append_singleton`).

`resolveChain_leads` puts these together.
-/

namespace Scaffold

/-! ### Ways -/

namespace Constants

variable {cs : Constants} {c next : Chain} {way : List Chain} {name : Text}

/-- The way stops at the chain, which stands behind those that were `seen`. -/
def StopsAt (cs : Constants) (seen : List Chain) (c : Chain) : Prop :=
  c.head = schemaNamespace ∨ cs.get? c.head = none ∨ ∃ b ∈ seen, b.head = c.head

/-- The chains are the way that the chain leads through the constants. -/
structure IsWay (cs : Constants) (c : Chain) (way : List Chain) : Prop where
  /-- It begins with the chain. -/
  starts : way.head? = some c
  /-- Behind a chain stands the chain of the constant that it begins with. -/
  follows : ∀ seen a b rest, way = seen ++ a :: b :: rest → cs.get? a.head = some b
  /-- It goes on up to the first chain at which it stops, and no further. -/
  stops : ∀ seen a rest, way = seen ++ a :: rest → (rest = [] ↔ cs.StopsAt seen a)

theorem get?_without_eq_some_iff {key : Text} :
    (cs.without name).get? key = some c ↔ key ≠ name ∧ cs.get? key = some c := by
  by_cases hkey : key = name
  · simp [hkey, get?_without_self]
  · simp [hkey, get?_without]

/-- A constant that is taken away is one that was seen. -/
theorem stopsAt_without_iff {a : Chain} {seen : List Chain} :
    (cs.without c.head).StopsAt seen a ↔ cs.StopsAt (c :: seen) a := by
  by_cases ha : a.head = c.head
  · simp [StopsAt, ha, get?_without_self]
  · simp [StopsAt, get?_without ha, Ne.symm ha]

/-- A chain that does not lead on is all of its way. -/
theorem isWay_iff_of_stopsAt (h : cs.StopsAt [] c) : cs.IsWay c way ↔ way = [c] := by
  constructor
  · rintro ⟨hstarts, -, hstops⟩
    obtain ⟨rest, rfl⟩ := List.head?_eq_some_iff.1 hstarts
    rw [(hstops [] c rest rfl).2 h]
  · rintro rfl
    refine ⟨rfl, fun seen a b rest heq => ?_, fun seen a rest heq => ?_⟩
    · have hlength : 1 = seen.length + (rest.length + 1 + 1) := by
        simpa using congrArg List.length heq
      omega
    · obtain ⟨rfl, heq⟩ : seen = [] ∧ [c] = a :: rest := by
        cases seen <;> simp_all
      cases heq
      exact iff_of_true rfl h

/-- A chain that leads on stands before the way of the next one through the other constants. -/
theorem IsWay.of_next (hz : c.head ≠ schemaNamespace) (hnext : cs.get? c.head = some next)
    (h : (cs.without c.head).IsWay next way) : cs.IsWay c (c :: way) := by
  obtain ⟨hstarts, hfollows, hstops⟩ := h
  refine ⟨rfl, fun seen a b rest heq => ?_, fun seen a rest heq => ?_⟩
  · cases seen with
    | nil =>
      obtain ⟨rfl, rfl⟩ := List.cons.inj heq
      rw [List.head?_cons] at hstarts
      rw [hnext, hstarts]
    | cons d seen =>
      obtain ⟨-, htail⟩ := List.cons.inj heq
      exact (get?_without_eq_some_iff.1 (hfollows seen a b rest htail)).2
  · cases seen with
    | nil =>
      obtain ⟨rfl, rfl⟩ := List.cons.inj heq
      refine iff_of_false ?_ (by simp [StopsAt, hz, hnext])
      rintro rfl
      cases hstarts
    | cons d seen =>
      obtain ⟨rfl, htail⟩ := List.cons.inj heq
      rw [hstops seen a rest htail, stopsAt_without_iff]

/-- Behind a chain that leads on, its way is that of the next one through the other constants. -/
theorem IsWay.behind (hz : c.head ≠ schemaNamespace) (hnext : cs.get? c.head = some next)
    (h : cs.IsWay c (c :: way)) : (cs.without c.head).IsWay next way := by
  obtain ⟨-, hfollows, hstops⟩ := h
  refine ⟨?_, fun seen a b rest heq => ?_, fun seen a rest heq => ?_⟩
  · have hgoes : ¬ cs.StopsAt [] c := by simp [StopsAt, hz, hnext]
    cases way with
    | nil => exact absurd ((hstops [] c [] rfl).1 rfl) hgoes
    | cons b rest =>
      have hb : cs.get? c.head = some b := hfollows [] c b rest rfl
      rw [List.head?_cons, ← hb, hnext]
  · subst heq
    refine get?_without_eq_some_iff.2 ⟨fun ha => ?_, hfollows (c :: seen) a b rest rfl⟩
    -- A chain that begins as `c` does would be the last one.
    have hlast : cs.StopsAt (c :: seen) a := .inr (.inr ⟨c, List.mem_cons_self, ha.symm⟩)
    cases (hstops (c :: seen) a (b :: rest) rfl).2 hlast
  · rw [hstops (c :: seen) a rest (by rw [heq, List.cons_append]), stopsAt_without_iff]

/-- **A chain has one way**, and it is the one that is followed. -/
theorem isWay_iff : cs.IsWay c way ↔ way = resolveChain cs c := by
  fun_induction resolveChain cs c generalizing way with
  | case1 cs c hz => exact isWay_iff_of_stopsAt (.inl hz)
  | case2 cs c hz hnone => exact isWay_iff_of_stopsAt (.inr (.inl hnone))
  | case3 cs c hz next hnext _ ih =>
    constructor
    · intro h
      obtain ⟨rest, rfl⟩ := List.head?_eq_some_iff.1 h.starts
      rw [ih.1 (h.behind hz hnext)]
    · rintro rfl
      exact .of_next hz hnext (ih.2 rfl)

/-- Only the last chain of a way can begin with the namespace. -/
theorem IsWay.head_ne {before : List Chain} {last a : Chain} (h : cs.IsWay c (before ++ [last]))
    (ha : a ∈ before) : a.head ≠ schemaNamespace := by
  obtain ⟨seen, rest, rfl⟩ := List.append_of_mem ha
  intro hz
  have hnil : rest ++ [last] = [] := (h.stops seen a (rest ++ [last]) (by simp)).2 (.inl hz)
  exact List.append_ne_nil_of_right_ne_nil _ (List.cons_ne_nil _ _) hnil

/-! ### The length of a way -/

/-- The names of the constants. -/
def names (cs : Constants) : Finset Text := (cs.map (·.1)).toFinset

theorem mem_names : name ∈ cs.names ↔ ∃ e ∈ cs, e.1 = name := by
  rw [names, List.mem_toFinset, List.mem_map]

theorem mem_names_of_get? (h : cs.get? name = some c) : name ∈ cs.names := by
  by_contra hnot
  rw [get?_eq_none fun e he hname => hnot (mem_names.2 ⟨e, he, hname⟩)] at h
  cases h

theorem names_without : (cs.without name).names = cs.names.erase name := by
  ext key
  rw [Finset.mem_erase, mem_names, mem_names]
  constructor
  · rintro ⟨e, he, rfl⟩
    obtain ⟨hmem, hne⟩ := List.mem_filter.1 he
    exact ⟨by simpa using hne, e, hmem, rfl⟩
  · rintro ⟨hne, e, he, rfl⟩
    exact ⟨e, List.mem_filter.2 ⟨he, by simpa using hne⟩, rfl⟩

end Constants

/-- A constant is followed once, so a way has at most one chain more than there are constants. -/
theorem length_resolveChain_le (cs : Constants) (c : Chain) :
    (resolveChain cs c).length ≤ cs.names.card + 1 := by
  fun_induction resolveChain cs c with
  | case1 cs c hz => exact Nat.succ_le_succ (Nat.zero_le _)
  | case2 cs c hz hnone => exact Nat.succ_le_succ (Nat.zero_le _)
  | case3 cs c hz next hnext _ ih =>
    rw [Constants.names_without,
      Finset.card_erase_add_one (Constants.mem_names_of_get? hnext)] at ih
    exact Nat.succ_le_succ ih

/-- The bound is reached where constants stand for each other. -/
example : (resolveChain [("a", ⟨"b", []⟩), ("b", ⟨"a", []⟩)] ⟨"a", []⟩).map Chain.head =
    ["a", "b", "a"] := by
  decide +kernel

/-! ### The constructor at its end -/

/-- The arguments are those of the first call of the name.  Without such a call there are none. -/
def CalledFirst (calls : List (Text × List Node)) (name : Text) (arguments : List Node) : Prop :=
  (∃ before after, calls = before ++ (name, arguments) :: after ∧ ∀ call ∈ before, call.1 ≠ name) ∨
    (∀ call ∈ calls, call.1 ≠ name) ∧ arguments = []

/-- The chain names a constructor with the arguments. -/
structure Chain.Constructs (c : Chain) (name : Text) (arguments : List Node) : Prop where
  /-- It begins with the namespace. -/
  head : c.head = schemaNamespace
  /-- The name is the first behind the parts of the namespace. -/
  names : ∃ parts rest, c.names = parts ++ name :: rest ∧ (∀ part ∈ parts, part ∈ namespaceParts) ∧
    name ∉ namespaceParts
  /-- The arguments are those that the name is called with. -/
  calls : CalledFirst c.calls name arguments

section Constructor

variable {c last : Chain} {name : Text} {arguments : List Node} {before : List Chain}

theorem calledFirst_iff {calls : List (Text × List Node)} :
    CalledFirst calls name arguments ↔
      ((calls.find? (·.1 = name)).map (·.2)).getD [] = arguments := by
  cases hfind : calls.find? (·.1 = name) with
  | none =>
    have hnone : ∀ call ∈ calls, call.1 ≠ name := by simpa using List.find?_eq_none.1 hfind
    constructor
    · rintro (⟨before, after, rfl, -⟩ | ⟨-, rfl⟩)
      · exact absurd rfl (hnone (name, arguments) (by simp))
      · rfl
    · rintro rfl
      exact .inr ⟨hnone, rfl⟩
  | some call =>
    obtain ⟨hcall, before, after, hcalls, hbefore⟩ := List.find?_eq_some_iff_append.1 hfind
    obtain rfl : call.1 = name := by simpa using hcall
    constructor
    · rintro (⟨before', after', hcalls', hbefore'⟩ | ⟨hnone, -⟩)
      · have hfind' : calls.find? (·.1 = call.1) = some (call.1, arguments) :=
          List.find?_eq_some_iff_append.2
            ⟨by simp, before', after', hcalls', by simpa using hbefore'⟩
        rw [Option.some.inj (hfind.symm.trans hfind')]
        rfl
      · exact absurd rfl (hnone call (by simp [hcalls]))
    · rintro rfl
      exact .inl ⟨before, after, hcalls, by simpa using hbefore⟩

theorem constructorOfChain?_eq_some_iff :
    constructorOfChain? c = some (name, arguments) ↔ c.Constructs name arguments := by
  have hfilter : ∀ n, (∃ rest, c.names.filter (!namespaceParts.contains ·) = n :: rest) ↔
      ∃ parts rest, c.names = parts ++ n :: rest ∧ (∀ part ∈ parts, part ∈ namespaceParts) ∧
        n ∉ namespaceParts := by
    intro n
    simp [List.filter_eq_cons_iff]
  constructor
  · intro h
    rw [constructorOfChain?.eq_def] at h
    split at h
    · rename_i hz
      split at h
      · cases h
      · rename_i n rest hnames
        obtain ⟨rfl, harguments⟩ := Prod.mk.inj (Option.some.inj h)
        exact ⟨hz, (hfilter n).1 ⟨rest, hnames⟩, calledFirst_iff.2 harguments⟩
    · cases h
  · rintro ⟨hz, hnames, hcalls⟩
    obtain ⟨rest, hrest⟩ := (hfilter name).2 hnames
    rw [constructorOfChain?, if_pos hz, hrest]
    exact congrArg (fun ns => some (name, ns)) (calledFirst_iff.1 hcalls)

/-- What a chain makes: what it constructs, or else something unknown. -/
theorem getD_constructorOfChain?_eq_iff :
    (constructorOfChain? c).getD ("unknown", []) = (name, arguments) ↔
      c.Constructs name arguments ∨
        (∀ name arguments, ¬ c.Constructs name arguments) ∧ name = "unknown" ∧ arguments = [] := by
  cases hfound : constructorOfChain? c with
  | none =>
    have hnot : ∀ name arguments, ¬ c.Constructs name arguments := by
      intro name arguments h
      cases hfound.symm.trans (constructorOfChain?_eq_some_iff.2 h)
    simp [hnot, eq_comm]
  | some found =>
    have hsome : c.Constructs found.1 found.2 := constructorOfChain?_eq_some_iff.1 hfound
    rw [← constructorOfChain?_eq_some_iff, hfound]
    constructor
    · rintro rfl
      exact .inl rfl
    · rintro (h | ⟨hnot, -⟩)
      · exact Option.some.inj h
      · exact absurd hsome (hnot _ _)

theorem constructorOfChain?_eq_none (h : c.head ≠ schemaNamespace) : constructorOfChain? c = none :=
  if_neg h

/-- The constructor is that of the last chain, if no other one begins with the namespace. -/
theorem constructorOf_append_singleton (h : ∀ a ∈ before, a.head ≠ schemaNamespace) :
    constructorOf (before ++ [last]) = (constructorOfChain? last).getD ("unknown", []) := by
  have hnone : before.reverse.findSome? constructorOfChain? = none := by
    rw [List.findSome?_eq_none_iff]
    exact fun a ha => constructorOfChain?_eq_none (h a (List.mem_reverse.1 ha))
  rw [constructorOf, List.reverse_append, List.reverse_singleton, List.findSome?_append, hnone,
    Option.or_none, List.findSome?_singleton]

end Constructor

/-- **Constants are followed exactly, and to an end.**  The chains that a chain leads to are its
only way through the constants; there is at most one more of them than there are constants; and the
constructor is the one that the last of them names, for no other begins with the namespace.  Where
it names none, the type is unknown. -/
theorem resolveChain_leads (cs : Constants) (c : Chain) :
    (∀ way, cs.IsWay c way ↔ way = resolveChain cs c) ∧
      (resolveChain cs c).length ≤ cs.names.card + 1 ∧
      ∃ before last, resolveChain cs c = before ++ [last] ∧
        (∀ a ∈ before, a.head ≠ schemaNamespace) ∧
        ∀ name arguments, constructorOf (resolveChain cs c) = (name, arguments) ↔
          last.Constructs name arguments ∨
            (∀ name arguments, ¬ last.Constructs name arguments) ∧
              name = "unknown" ∧ arguments = [] := by
  have hway : cs.IsWay c (resolveChain cs c) := Constants.isWay_iff.2 rfl
  refine ⟨fun _ => Constants.isWay_iff, length_resolveChain_le cs c, ?_⟩
  obtain hnil | ⟨before, last, heq⟩ := List.eq_nil_or_concat' (resolveChain cs c)
  · have hstarts := hway.starts
    rw [hnil] at hstarts
    cases hstarts
  have hbefore : ∀ a ∈ before, a.head ≠ schemaNamespace := fun a ha => (heq ▸ hway).head_ne ha
  refine ⟨before, last, heq, hbefore, fun name arguments => ?_⟩
  rw [heq, constructorOf_append_singleton hbefore, getD_constructorOfChain?_eq_iff]

end Scaffold
