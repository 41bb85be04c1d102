import Scaffold.Artifact.Collection
import Scaffold.Proofs.Artifact.Client

/-!
# The addresses of a collection

The collection file of a resource calls the client with the path of the resource, as a string where
records are fetched and added, and in a template where one record is changed or removed.
-/

namespace Scaffold

open CodePoint

namespace Artifact

/-! ### The lines in front of the calls -/

open Code

/-- Nothing in the text is escaped in a string. -/
def StandsInString (t : Text) : Prop := ∀ c ∈ t, Text.literalPart c = [c]

instance : DecidablePred StandsInString := fun t =>
  inferInstanceAs (Decidable (∀ c ∈ t, Text.literalPart c = [c]))

theorem standsInString_of_isIdent {x : Text} (hx : x.isIdent = true) : StandsInString x := by
  cases x with
  | nil => cases hx
  | cons c x =>
    obtain ⟨hc, hpart⟩ := Bool.and_eq_true_iff.1 hx
    refine List.forall_mem_cons.2 ⟨?_, fun d hd => ?_⟩
    · exact of_isIdentPart (P := fun c => Text.literalPart c = [c]) (by decide) (by decide +kernel)
        (isIdentPart_of_isIdentStart hc)
    · exact of_isIdentPart (P := fun c => Text.literalPart c = [c]) (by decide) (by decide +kernel)
        (List.all_eq_true.1 hpart d hd)

theorem literal_eq {t : Text} (h : StandsInString t) : t.literal = "'" ++ t ++ "'" := by
  have hparts : t.flatMap Text.literalPart = t := by
    rw [List.flatMap_congr h]
    exact List.flatMap_singleton' t
  rw [Text.literal, hparts]

theorem aside_importLine {names source : Text} (hnames : names.isIdent = true)
    (hsource : StandsInString source) : Aside Interrupts (importLine names source) := by
  have htext : importLine names source = Text.ofString "import \x7b " ++
      (names ++ (Text.ofString " \x7d from " ++ source.literal)) := by
    rw [literal_eq hsource]
    simp [importLine, spaced, Text.ofString]
  have hmodule : Aside Interrupts source.literal :=
    (Aside.literal source).imp fun _ h => ⟨h.1.mono fun _ _ => trivial, h.2⟩
  rw [htext]
  refine (Aside.phrase (by decide) (by decide +kernel) (by decide)).append_anywhere ?_
  refine (Aside.name hnames).append_break ?_ ⟨by simp [Text.ofString], isBreak_cons (by decide)⟩
  exact (Aside.phrase (by decide) (by decide +kernel) (by decide)).append_anywhere hmodule

theorem aside_header : Aside (fun _ => True) (header ++ "\n") := by
  refine ⟨[], fun n operand rest _ => ⟨[], operand, rfl, ?_⟩, callsNothing_nil⟩
  have hbody : newline ∉ header.drop 2 := by decide
  have htext : header ++ "\n" ++ rest = "//" ++ (header.drop 2 ++ newline :: rest) := by
    simp [header, Text.ofString, newline]
  rw [htext, tokensFrom_line, skipLine_of_newline hbody]
  cases tokensFrom n operand rest <;> rfl

/-- The names of the resource and of its primary key are names in code. -/
structure HasIdents (r : Resource) : Prop where
  /-- The name. -/
  name : r.name.isIdent = true
  /-- The name of several records. -/
  pluralName : r.pluralName.isIdent = true
  /-- The variable. -/
  varName : r.varName.isIdent = true
  /-- The field that identifies a record. -/
  primaryKey : r.primaryKey.isIdent = true

theorem isIdent_collectionName {r : Resource} (h : r.pluralName.isIdent = true) :
    r.collectionName.isIdent = true := by
  have hall : ∀ c ∈ Text.ofString "Collection", isIdentPart c = true := by decide
  rw [Resource.collectionName]
  cases hplural : r.pluralName with
  | nil =>
    rw [hplural] at h
    cases h
  | cons c t =>
    rw [hplural, Text.isIdent, Bool.and_eq_true] at h
    rw [List.cons_append, Text.isIdent, Bool.and_eq_true, List.all_append, h.2, Bool.true_and]
    exact ⟨h.1, List.all_eq_true.2 hall⟩

variable {r : Resource}

/-- The lines of a collection in front of the one that calls the client first. -/
def openingLines (r : Resource) : List Text :=
  List.flatten [
    [header,
      importLine "createCollection" "@tanstack/react-db",
      importLine "queryCollectionOptions" "@tanstack/query-db-collection",
      importLine "apiClient" "@/api/client",
      importLine "queryClient" "@/lib/query-client",
      importLine r.varName (schemaModule r),
      "",
      "export type " ++ r.typeName ++ " = typeof " ++ r.varName ++ ".type",
      "",
      "export const " ++ r.collectionName ++ " = createCollection(",
      "  queryCollectionOptions(\x7b",
      "    id: " ++ r.pluralName.literal ++ ",",
      "    queryKey: [" ++ r.pluralName.literal ++ "],",
      "    queryClient,",
      "    schema: " ++ r.varName ++ ".schema,",
      "    getKey: (item: " ++ r.typeName ++ ") => item." ++ r.primaryKey ++ ","],
    match r.config.get? "syncMode" with
    | some (.text mode) => ["    syncMode: " ++ mode.literal ++ ","]
    | _ => [],
    ["    queryFn: async () => \x7b"]]

/-- A line that shows a text as a string, behind code that the string breaks. -/
theorem aside_literalLine {before after : Text} (t : Text)
    (hbefore : Aside Interrupts before) (hafter : Aside Interrupts after) :
    Aside (fun _ => True) (before ++ t.literal ++ after ++ "\n") := by
  rw [List.append_assoc before]
  exact (hbefore.append_break ((Aside.literal t).append_anywhere hafter)
    ⟨by simp [Text.literal, Text.ofString], isBreak_cons (by decide)⟩).line

theorem aside_typeLine (hname : r.name.isIdent = true) (hvar : r.varName.isIdent = true) :
    Aside Interrupts ("export type " ++ r.typeName ++ " = typeof " ++ r.varName ++ ".type") := by
  have htext : "export type " ++ r.typeName ++ " = typeof " ++ r.varName ++ ".type" =
      Text.ofString "export type " ++ (r.typeName ++ (Text.ofString " = typeof " ++
        (r.varName ++ (.scalar '.' :: Text.ofString "type")))) := by
    simp [Text.ofString]
  rw [htext]
  refine (Aside.phrase (by decide) (by decide +kernel) (by decide)).append_anywhere ?_
  refine (Aside.name (Text.isIdent_capitalize hname)).append_break ?_
    ⟨by simp [Text.ofString], isBreak_cons (by decide)⟩
  exact (Aside.phrase (by decide) (by decide +kernel) (by decide)).append_anywhere
    (Aside.member hvar (by decide) (.inr (by decide)))

theorem aside_keyLine (hname : r.name.isIdent = true) (hkey : r.primaryKey.isIdent = true) :
    Aside Interrupts
      ("    getKey: (item: " ++ r.typeName ++ ") => item." ++ r.primaryKey ++ ",") := by
  have htext : "    getKey: (item: " ++ r.typeName ++ ") => item." ++ r.primaryKey ++ "," =
      Text.ofString "    getKey: (item: " ++ (r.typeName ++ (Text.ofString ") => " ++
        ((Text.ofString "item" ++ (.scalar '.' :: r.primaryKey)) ++ Text.ofString ","))) := by
    simp [Text.ofString]
  rw [htext]
  refine (Aside.phrase (by decide) (by decide +kernel) (by decide)).append_anywhere ?_
  refine (Aside.name (Text.isIdent_capitalize hname)).append_break ?_
    ⟨by simp [Text.ofString], isBreak_cons (by decide)⟩
  refine (Aside.phrase (by decide) (by decide +kernel) (by decide)).append_anywhere ?_
  exact (Aside.member (by decide) hkey (.inl (by decide))).append_break
    (Aside.code (by decide) (by decide +kernel)) ⟨by decide, isBreak_cons (by decide)⟩

theorem aside_openingLines (h : HasIdents r) :
    Aside (fun _ => True) (Text.unlines (openingLines r)) := by
  have hcode {t : Text} (ht : t.IsCode) (hnone : CallsNothing t.lexemes) :
      Aside (fun _ => True) (t ++ "\n") := (Aside.code ht hnone).line
  have hmodule : StandsInString (schemaModule r) := by
    refine List.forall_mem_append.2 ⟨List.forall_mem_append.2 ⟨by decide, ?_⟩, by decide⟩
    exact standsInString_of_isIdent h.name
  have himport {names source : Text} (hnames : names.isIdent = true)
      (hsource : StandsInString source) : Aside (fun _ => True) (importLine names source ++ "\n") :=
    (aside_importLine hnames hsource).line
  have hconst :
      Aside Interrupts ("export const " ++ r.collectionName ++ " = createCollection(") := by
    rw [List.append_assoc]
    refine (Aside.phrase (by decide) (by decide +kernel) (by decide)).append_anywhere ?_
    exact (Aside.name (isIdent_collectionName h.pluralName)).append_break
      (Aside.code (by decide) (by decide +kernel)) ⟨by decide, isBreak_cons (by decide)⟩
  have hschema : Aside Interrupts ("    schema: " ++ r.varName ++ ".schema,") := by
    have htext : "    schema: " ++ r.varName ++ ".schema," = Text.ofString "    schema: " ++
        ((r.varName ++ (.scalar '.' :: Text.ofString "schema")) ++ Text.ofString ",") := by
      simp [Text.ofString]
    rw [htext]
    refine (Aside.phrase (by decide) (by decide +kernel) (by decide)).append_anywhere ?_
    exact (Aside.member h.varName (by decide) (.inr (by decide))).append_break
      (Aside.code (by decide) (by decide +kernel)) ⟨by decide, isBreak_cons (by decide)⟩
  have hcomma : Aside Interrupts "," := Aside.code (by decide) (by decide +kernel)
  refine Aside.unlines ?_
  rw [openingLines]
  simp only [List.flatten_cons, List.flatten_nil, List.forall_mem_append, List.forall_mem_cons,
    List.append_nil]
  refine ⟨⟨aside_header, himport (by decide) (by decide), himport (by decide) (by decide),
    himport (by decide) (by decide), himport (by decide) (by decide), himport h.varName hmodule,
    Aside.nil.line, (aside_typeLine h.name h.varName).line, Aside.nil.line, hconst.line,
    hcode (by decide) (by decide +kernel), ?_, ?_,
    hcode (by decide) (by decide +kernel), hschema.line, (aside_keyLine h.name h.primaryKey).line,
    nofun⟩, ?_, hcode (by decide) (by decide +kernel), nofun⟩
  · exact aside_literalLine r.pluralName (Aside.code (by decide) (by decide +kernel)) hcomma
  · exact aside_literalLine r.pluralName (Aside.code (by decide) (by decide +kernel))
      (Aside.code (by decide) (by decide +kernel))
  · split
    · rename_i mode _
      refine List.forall_mem_singleton.2 ?_
      exact aside_literalLine mode (Aside.code (by decide) (by decide +kernel)) hcomma
    · exact nofun

/-- What stands between the paths of the calls that fetch records and add one. -/
def betweenGetAndPost : Text :=
  Text.unlines [")",
    "      return res.data",
    "    \x7d,",
    "    onInsert: async (\x7b transaction \x7d) => \x7b",
    "      await Promise.all("] ++ "        transaction.mutations.map((m) => "

/-- What stands between the paths of the calls that add a record and change one. -/
def betweenPostAndPatch : Text :=
  Text.unlines [", m.modified))",
    "      )",
    "    \x7d,",
    "    onUpdate: async (\x7b transaction \x7d) => \x7b",
    "      await Promise.all(",
    "        transaction.mutations.map((m) =>"] ++ "          "

/-- What stands between the paths of the calls that change a record and remove one. -/
def betweenPatchAndDelete : Text :=
  Text.unlines [", m.changes)",
    "        )",
    "      )",
    "    \x7d,",
    "    onDelete: async (\x7b transaction \x7d) => \x7b",
    "      await Promise.all("] ++ "        transaction.mutations.map((m) => "

/-- What stands behind the path of the call that removes a record. -/
def behindDelete : Text :=
  Text.unlines ["))",
    "      )",
    "    \x7d,",
    "  \x7d)",
    ")"]

/-- The lines of a collection from the one that calls the client first. -/
def callLines (r : Resource) : List Text :=
  ["      const res = await apiClient.get<" ++ r.typeName ++ "[]>(" ++ r.apiBasePath.literal ++ ")",
    "      return res.data",
    "    \x7d,",
    "    onInsert: async (\x7b transaction \x7d) => \x7b",
    "      await Promise.all(",
    "        transaction.mutations.map((m) => apiClient.post(" ++ r.apiBasePath.literal
      ++ ", m.modified))",
    "      )",
    "    \x7d,",
    "    onUpdate: async (\x7b transaction \x7d) => \x7b",
    "      await Promise.all(",
    "        transaction.mutations.map((m) =>",
    "          apiClient.patch(" ++ recordAddress r.apiBasePath ++ ", m.changes)",
    "        )",
    "      )",
    "    \x7d,",
    "    onDelete: async (\x7b transaction \x7d) => \x7b",
    "      await Promise.all(",
    "        transaction.mutations.map((m) => apiClient.delete(" ++ recordAddress r.apiBasePath
      ++ "))",
    "      )",
    "    \x7d,",
    "  \x7d)",
    ")"]

theorem apiCollection_eq (r : Resource) : apiCollection r = openingLines r ++ callLines r := by
  rw [apiCollection, openingLines]
  -- the lines of a mode, if there is one, are between others
  cases r.config.get? "syncMode" with
  | none => rfl
  | some mode => cases mode <;> rfl

/-- The calls of the client stand in code that depends on the names of the resource only. -/
theorem collection_eq (h : r.isParquet = false) :
    collection r = Text.unlines (openingLines r) ++ ("      const res = await " ++
      ("apiClient.get<" ++ r.typeName ++ "[]>(" ++ (r.apiBasePath.literal ++ (betweenGetAndPost ++
      ("apiClient.post(" ++ (r.apiBasePath.literal ++ (betweenPostAndPatch ++
      ("apiClient.patch(" ++ (recordAddress r.apiBasePath ++ (betweenPatchAndDelete ++
      ("apiClient.delete(" ++ (recordAddress r.apiBasePath ++ behindDelete)))))))))))) := by
  have hget : Text.ofString "      const res = await apiClient.get<" =
      Text.ofString "      const res = await " ++ Text.ofString "apiClient.get<" := by
    decide +kernel
  have hpost : Text.ofString "        transaction.mutations.map((m) => apiClient.post(" =
      Text.ofString "        transaction.mutations.map((m) => " ++
        Text.ofString "apiClient.post(" := by
    decide +kernel
  have hpatch : Text.ofString "          apiClient.patch(" =
      Text.ofString "          " ++ Text.ofString "apiClient.patch(" := by decide +kernel
  have hdelete : Text.ofString "        transaction.mutations.map((m) => apiClient.delete(" =
      Text.ofString "        transaction.mutations.map((m) => " ++
        Text.ofString "apiClient.delete(" := by
    decide +kernel
  rw [collection, if_neg (by simp [h]), apiCollection_eq, Text.unlines_append,
    List.append_cancel_left_eq]
  simp only [Text.unlines, callLines, hget, hpost, hpatch, hdelete, List.flatMap_cons,
    List.flatMap_nil, betweenGetAndPost, betweenPostAndPatch, betweenPatchAndDelete, behindDelete,
    List.append_assoc, List.append_nil]

/-! ### The calls -/

/-- The type argument of the call that fetches records. -/
def recordsType (r : Resource) : List Lexeme :=
  [(.punct, "<"), (.ident, r.typeName), (.punct, "["), (.punct, "]"), (.punct, ">")]

theorem lexesAs_less :
    LexesAs (fun c => isIdentStart c = true) [.scalar '<'] [(.punct, [.scalar '<'])] := by
  refine lexesAs_punct (by decide) (by decide) (by decide) (by decide) (by decide) fun rest hr => ?_
  have hall : ∀ w ∈ longPuncts, ∀ d ∈ w.tail.head?, isIdentStart d = false := by decide
  refine ⟨rfl, scanPunct_eq_singleton (.inr fun d hd w hw he => ?_)⟩
  have := hall w hw d he
  rw [hr d hd] at this
  cases this

/-- The call that fetches records, up to its argument. -/
theorem lexesAs_get (hname : r.name.isIdent = true) :
    LexesAs Interrupts ("apiClient.get<" ++ r.typeName ++ "[]>(")
      (callLexemes "get" (recordsType r)) := by
  have htype : r.typeName.isIdent = true := Text.isIdent_capitalize hname
  have hclose : LexesAs Interrupts (Text.ofString "[]>(")
      [(.punct, "["), (.punct, "]"), (.punct, ">"), opening] := by
    have hlexemes : Text.lexemes "[]>(" =
        ([(.punct, "["), (.punct, "]"), (.punct, ">"), opening] : List Lexeme) := by decide +kernel
    exact hlexemes ▸ lexesAs_code (by decide)
  have hopen : LexesAs Interrupts (.scalar '<' :: (r.typeName ++ Text.ofString "[]>("))
      (recordsType r ++ [opening]) := by
    have hlist : LexesAs Interrupts (r.typeName ++ Text.ofString "[]>(") _ :=
      (lexesAs_ident htype).append_cons (by decide) hclose
    rw [recordsType]
    cases hcapital : r.typeName with
    | nil =>
      rw [hcapital] at htype
      cases htype
    | cons c t =>
      rw [hcapital] at htype hlist
      exact lexesAs_less.append_cons (Bool.and_eq_true_iff.1 htype).1 hlist
  have htext : "apiClient.get<" ++ r.typeName ++ "[]>(" =
      (Text.ofString "apiClient" ++ (.scalar '.' :: Text.ofString "get")) ++
        (.scalar '<' :: (r.typeName ++ Text.ofString "[]>(")) := by
    simp [Text.ofString]
  rw [htext]
  exact (lexesAs_member (by decide) (by decide)).append_cons (by decide) hopen

/-- The address of a record stands for the path with a slash, and has the key of the record in its
one substitution. -/
theorem readsTemplate_recordAddress {path : Text} (h : path.IsTemplatePart) :
    ∃ body, recordAddress path = templateOf body ∧
      ReadsTemplate body (path ++ "/") [Text.ofString "m.key"] := by
  refine ⟨path ++ (Text.ofString "/" ++
    (Text.ofString "$\x7b" ++ (Text.ofString "m.key" ++ [CodePoint.scalar '\x7d']))), ?_, ?_⟩
  · simp [recordAddress, templateOf, Text.ofString]
  · refine h.readsTemplate (by rintro c ⟨⟩; decide) ?_
    exact .text (by decide) (by decide) (by decide) (.quiet (by decide) .nil)

/-- The calls of a collection whose addresses are templates that stand for the value. -/
def collectionRequests (r : Resource) (value : Text) (codes : List Text) : List Request :=
  [⟨"get", (.string, r.apiBasePath), r.apiBasePath.literal⟩,
    ⟨"post", (.string, r.apiBasePath), r.apiBasePath.literal⟩,
    ⟨"patch", (.template !codes.isEmpty, value), recordAddress r.apiBasePath⟩,
    ⟨"delete", (.template !codes.isEmpty, value), recordAddress r.apiBasePath⟩]

/-- A collection makes its calls, if the addresses of records are templates. -/
theorem requests_collection (source : Text) (hjson : r.isParquet = false) (hr : HasIdents r)
    {body value : Text} {codes : List Text} (hbody : recordAddress r.apiBasePath = templateOf body)
    (hreads : ReadsTemplate body value codes) :
    Requests source (collection r) (collectionRequests r value codes) := by
  have hstring : Lexeme.IsWrittenAs (.string, r.apiBasePath) r.apiBasePath.literal :=
    isWrittenAs_literal _
  have hquote : r.apiBasePath.literal ≠ [] ∧ IsBreak r.apiBasePath.literal :=
    ⟨by simp [Text.literal, Text.ofString], isBreak_cons (by decide)⟩
  have haddress : Lexeme.IsWrittenAs (.template !codes.isEmpty, value)
      (recordAddress r.apiBasePath) := hbody ▸ hreads.isWrittenAs
  have htick : recordAddress r.apiBasePath ≠ [] ∧ IsBreak (recordAddress r.apiBasePath) :=
    ⟨by simp [recordAddress, Text.ofString], isBreak_cons (by decide)⟩
  have hpost : LexesAs Interrupts (Text.ofString "apiClient.post(") (callLexemes "post" []) :=
    (by decide +kernel : Text.lexemes "apiClient.post(" = callLexemes "post" []) ▸
      lexesAs_code (by decide)
  have hpatch : LexesAs Interrupts (Text.ofString "apiClient.patch(") (callLexemes "patch" []) :=
    (by decide +kernel : Text.lexemes "apiClient.patch(" = callLexemes "patch" []) ▸
      lexesAs_code (by decide)
  have hdelete : LexesAs Interrupts (Text.ofString "apiClient.delete(") (callLexemes "delete" []) :=
    (by decide +kernel : Text.lexemes "apiClient.delete(" = callLexemes "delete" []) ▸
      lexesAs_code (by decide)
  have hstringKind : TokenKind.string ≠ .ident ∧ TokenKind.string ≠ .punct := by decide
  have htemplateKind : TokenKind.template (!codes.isEmpty) ≠ .ident ∧
      TokenKind.template (!codes.isEmpty) ≠ .punct := by simp
  -- the module is read from its end, one call after the other
  rw [collection_eq hjson]
  have hend : Requests source behindDelete [] :=
    .finish (.code (by decide +kernel) (by decide +kernel))
  have hafterPatch := (hend.call hdelete (by decide) haddress htick htemplateKind).aside
    (u := betweenPatchAndDelete)
    (.phrase (by decide +kernel) (by decide +kernel) (by decide +kernel)) (by simp)
  have hafterPost := (hafterPatch.call hpatch (by decide) haddress htick htemplateKind).aside
    (u := betweenPostAndPatch)
    (.phrase (by decide +kernel) (by decide +kernel) (by decide +kernel)) (by simp)
  have hafterGet := (hafterPost.call hpost (by decide) hstring hquote hstringKind).aside
    (u := betweenGetAndPost)
    (.phrase (by decide +kernel) (by decide +kernel) (by decide +kernel)) (by simp)
  have hrecords : point ∉ recordsType r ∧ opening ∉ recordsType r := by
    simp [recordsType, point, opening, Text.ofString]
  have hget := (hafterGet.call (lexesAs_get hr.name) hrecords hstring hquote hstringKind).aside
    (u := "      const res = await ")
    (.phrase (by decide) (by decide +kernel) (by decide)) (by simp)
  exact hget.aside (aside_openingLines hr) (by simp)

/-- A collection has tokens.  The calls that fetch records and add one have the path for their
argument, and the calls that change a record and remove one have a template that stands for the path
with a slash and has the key of the record in its one substitution, if the path stands for itself in
a template. -/
theorem tokenize_collection (hjson : r.isParquet = false) (hr : HasIdents r)
    (hpath : r.apiBasePath.IsTemplatePart) :
    ∃ ts, tokenize (collection r) = .ok ts ∧
      (∀ method ∈ (["get", "post"] : List Text),
        (clientArguments method ts).map Token.lexeme = [(.string, r.apiBasePath)]) ∧
      ∀ method ∈ (["patch", "delete"] : List Text), ∃ t body, clientArguments method ts = [t] ∧
        t.lexeme = (.template true, r.apiBasePath ++ "/") ∧
        (collection r).slice t.start t.stop = templateOf body ∧
        ReadsTemplate body (r.apiBasePath ++ "/") [Text.ofString "m.key"] := by
  obtain ⟨body, hbody, hreads⟩ := readsTemplate_recordAddress hpath
  obtain ⟨ts, htokens, -, hcalls⟩ :=
    requests_collection (collection r) hjson hr hbody hreads (List.suffix_refl _) false
  refine ⟨ts, htokens, fun method hmethod => ?_, fun method hmethod => ?_⟩
  · have hstring : ∃ t, clientArguments method ts = [t] ∧
        Request.HasArgument (collection r)
          ⟨method, (.string, r.apiBasePath), r.apiBasePath.literal⟩ t := by
      rcases List.mem_pair.1 hmethod with rfl | rfl <;>
        exact Request.exists_hasArgument rfl (hcalls _ (by decide))
    obtain ⟨t, ht, hlexeme, -⟩ := hstring
    rw [ht, List.map_singleton, hlexeme]
  · have htemplate : ∃ t, clientArguments method ts = [t] ∧ Request.HasArgument (collection r)
        ⟨method, (.template true, r.apiBasePath ++ "/"), recordAddress r.apiBasePath⟩ t := by
      rcases List.mem_pair.1 hmethod with rfl | rfl <;>
        exact Request.exists_hasArgument rfl (hcalls _ (by decide))
    obtain ⟨t, ht, hlexeme, hwritten⟩ := htemplate
    exact ⟨t, body, ht, hlexeme, hwritten.trans hbody, hreads⟩

/-- A collection whose path has letters, digits and slashes only. -/
theorem tokenize_collection_versioned :
    let r : Resource :=
      { name := "product", pluralName := "products", varName := "productResource",
        config := [("apiBasePath", .text "/v1/products")] }
    (r.isParquet = false ∧ HasIdents r ∧ r.apiBasePath.IsTemplatePart) ∧
      ∃ ts, tokenize (collection r) = .ok ts ∧
        (∀ method ∈ (["get", "post"] : List Text), (clientArguments method ts).map Token.lexeme =
          [(.string, Text.ofString "/v1/products")]) ∧
        ∀ method ∈ (["patch", "delete"] : List Text), ∃ t body, clientArguments method ts = [t] ∧
          t.lexeme = (.template true, Text.ofString "/v1/products/") ∧
          (collection r).slice t.start t.stop = templateOf body ∧
          ReadsTemplate body "/v1/products/" [Text.ofString "m.key"] := by
  intro r
  have hjson : r.isParquet = false := by decide
  have hr : HasIdents r := ⟨by decide, by decide, by decide, by decide⟩
  have hpath : Text.IsTemplatePart (Text.ofString "/v1/products") :=
    ⟨by decide, by decide +kernel⟩
  exact ⟨⟨hjson, hr, hpath⟩, tokenize_collection hjson hr hpath⟩

/-- Of a backslash in the path the templates make an escape sequence: records are fetched from one
path and changed below another. -/
theorem not_tokenize_collection_backslash :
    let r : Resource :=
      { name := "product", pluralName := "products", varName := "productResource",
        config := [("apiBasePath", .text "/api\\products")] }
    (r.isParquet = false ∧ HasIdents r) ∧ ¬ ∃ ts, tokenize (collection r) = .ok ts ∧
      (clientArguments "patch" ts).map Token.lexeme = [(.template true, r.apiBasePath ++ "/")] := by
  intro r
  have hjson : r.isParquet = false := by decide
  have hr : HasIdents r := ⟨by decide, by decide, by decide, by decide⟩
  have hbefore : Text.IsTemplatePart (Text.ofString "/api") := ⟨by decide, by decide +kernel⟩
  have hafter : Text.IsTemplatePart (Text.ofString "roducts/") := ⟨by decide, by decide +kernel⟩
  have hkey : IsQuiet (Text.ofString "m.key") := by decide
  have hread (rest : Text) : Escape.read (Text.ofString "p" ++ rest) = .ok ("p", rest) := rfl
  have hreads := hbefore.readsTemplate (by decide)
    (.escape hread (hafter.readsTemplate (by decide) (.quiet hkey .nil)))
  obtain ⟨us, hus, -, hcalls⟩ :=
    requests_collection (collection r) hjson hr rfl hreads (List.suffix_refl _) false
  obtain ⟨t, ht, hlexeme, -⟩ := Request.exists_hasArgument rfl (hcalls "patch" (by decide))
  refine ⟨⟨hjson, hr⟩, ?_⟩
  rintro ⟨ts, hts, haddress⟩
  obtain rfl : us = ts := Except.ok.inj (hus.symm.trans hts)
  rw [ht, List.map_singleton, hlexeme] at haddress
  revert haddress
  decide

end Artifact

end Scaffold
