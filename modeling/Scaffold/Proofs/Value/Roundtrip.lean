import Scaffold.Proofs.Expr.Reading
import Scaffold.Proofs.Token.Filler

/-!
# Writing data and reading it again

Plain data is written as a source that is one expression, and the value of this expression is the
data (`Value.evaluate_source`).  The last token of the source is left, so that nothing of it is
unread.  A text is written as one token that stands for it (`Text.tokenize_literal`).
-/

namespace Scaffold

open CodePoint

/-- A text is written as a string that stands for it, and as nothing else. -/
theorem Text.tokenize_literal (s : Text) :
    tokenize s.literal = .ok [⟨.string, s, 0, s.literal.length⟩, Token.endOf s.literal.length] :=
  tokenize_string (.inl rfl) (readsString_literalPart s [])

namespace Value

/-- **Writing and reading are inverse.**  The source of plain data is one expression up to its end,
and the value of the expression is the data. -/
theorem evaluate_source :
    (∀ v : Value, v.IsData → ∃ ts p, tokenize v.source = .ok ts ∧
      Expr.read v.source ts = .ok p ∧ p.value.evaluate = v ∧
      p.rest = [Token.endOf v.source.length]) ∧
    ∀ s : Text, tokenize s.literal =
      .ok [⟨.string, s, 0, s.literal.length⟩, Token.endOf s.literal.length] := by
  refine ⟨fun v hv => ?_, Text.tokenize_literal⟩
  obtain ⟨ts, hts, htokens⟩ := (lexesAs_source v hv).tokenize
  obtain ⟨p, hp, hvalue, hrest⟩ := (readsAs_lexemes v hv).reads ts (Token.endOf v.source.length) []
    hts (.inl rfl)
  exact ⟨_, p, htokens, hp, evaluate_of_readAs v hv hvalue, hrest⟩

/-- Keywords are names of members, and numbers may be negative. -/
theorem evaluate_source_nested :
    let v := object [("new", list [number (.integer (-12)), text "it's\\", null]),
      ("if", object []), ("of", bool true)]
    v.source = "\x7b new: [-12, 'it\\'s\\\\', undefined], if: \x7b\x7d, of: true \x7d" ∧
    ∃ ts p, tokenize v.source = .ok ts ∧ Expr.read v.source ts = .ok p ∧
      p.value.evaluate = v ∧ p.rest = [Token.endOf v.source.length] := by
  refine ⟨by decide +kernel, evaluate_source.1 _ ?_⟩
  simp +decide [IsData, AllData, AllMembersData]

end Value

end Scaffold
