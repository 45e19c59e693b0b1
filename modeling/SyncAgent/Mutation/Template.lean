import SyncAgent.Mutation.FieldPaths

/-! Template mutations against the other templates of the agent.  `templating.Render` runs a
template with `text/template`; the transformer imports `html/template`, which escapes what is
inserted. -/

namespace Mutation

open GoTemplate Sync

variable {α δ ν : Type}

/-- `templateFuncMap`, the names of the functions. -/
def templateFuncMap (sprig : List String) : List String :=
  sprig ++ ["sha3sum", "sha3short", "shortHash"]

/-- `templating.Render` -/
def render (P : Package α δ ν) (sprig : List String) (tpl : String) (data : δ) :
    Except Error String :=
  match P.parse (templateFuncMap sprig) tpl with
  | .error e => .error (.wrapped "failed to parse" (.new e))
  | .ok parts =>
    match P.execute parts data with
    | .error e => .error (.wrapped "failed to evaluate" (.new e))
    | .ok out => .ok (trimSpace (String.ofList out))

theorem render_package {E : Engine} {sprig : List String} {tpl : String} {parts : List (Piece Node)}
    (hparse : parseParts (templateFuncMap sprig) tpl = .ok parts)
    (hfuncs : ∀ f ∈ templateFuncMap sprig, (E.func f).isSome = true) (data : Fields) :
    render E.package sprig tpl data = renderTemplate E tpl data := by
  obtain ⟨nodes, hnodes, hknown, rfl⟩ := parseParts_eq_ok hparse
  have heval := evalNodes_package data fun n hn f hf => hfuncs f (hknown n hn f hf)
  have hpackage : E.package.parse (templateFuncMap sprig) tpl =
    .ok (nodes.flatMap Node.parts) := hparse
  simp only [render, hpackage, renderTemplate, GoTemplate.render, hnodes, Option.bind_some, heval]
  cases E.package.execute (nodes.flatMap Node.parts) data <;> rfl

section Verbatim

variable {L : Libraries} {parts : List (Piece L.Pipeline)} {path tpl : String} {toMutate : Object}
  {otherObj : Option Object} {text : L.Pipeline → String}

/-- What `Render` makes of a template that inserts the given strings. -/
theorem render_marks (hparse : L.templates.parse L.sprig tpl = .ok parts)
    (h : Inserts L.templates parts (Transformer.context path toMutate otherObj) text) :
    render L.templates L.sprig tpl (Transformer.context path toMutate otherObj) =
      .ok (String.ofList (trimList ((marks L.html text parts).flatMap Mark.plain))) := by
  simp only [render, templateFuncMap, L.templates.parse_append hparse,
    execute_marks L.html h, trimSpace,
    String.toList_ofList]

theorem replacement_marks (htags : ∀ s, Piece.text s ∈ parts → '<' ∉ s)
    (h : Inserts L.templates parts (Transformer.context path toMutate otherObj) text) :
    Transformer.replacement path parts toMutate otherObj =
      .ok (String.ofList
        (trimList ((marks L.html text parts).flatMap (Mark.escaped L.html.escape)))) := by
  simp only [Transformer.replacement, executeHtml_marks L.html h htags, trimSpace,
    String.toList_ofList]

/-- The transformer writes what `Render` gives unless it escapes a character that is inserted. -/
theorem replacement_eq_render_iff (hparse : L.templates.parse L.sprig tpl = .ok parts)
    (htags : ∀ s, Piece.text s ∈ parts → '<' ∉ s)
    (h : Inserts L.templates parts (Transformer.context path toMutate otherObj) text) :
    Transformer.replacement path parts toMutate otherObj =
        render L.templates L.sprig tpl (Transformer.context path toMutate otherObj) ↔
      ∀ a, Piece.action a ∈ parts → L.html.escaped a = false → ∀ c ∈ (text a).toList,
        L.html.escape.char c = [c] := by
  rw [replacement_marks htags h, render_marks hparse h, Except.ok.injEq, String.ofList_inj, eq_comm,
    Mark.trimList_escaped_iff]
  constructor
  · intro hmarks a ha hescaped c hc
    exact hmarks ⟨c, true⟩ (mem_marks_inserted.mpr ⟨a, ha, hescaped, hc⟩) rfl
  · rintro hchars ⟨c, inserted⟩ hm rfl
    obtain ⟨a, ha, hescaped, hc⟩ := mem_marks_inserted.mp hm
    exact hchars a ha hescaped c hc

/-- The transformer writes what `Render` gives, and a string that is inserted alone, without white
space around it, is written as it is. -/
structure InsertsVerbatim (L : Libraries) (path tpl : String) (parts : List (Piece L.Pipeline))
    (toMutate : Object) (otherObj : Option Object) (text : L.Pipeline → String) : Prop where
  same : Transformer.replacement path parts toMutate otherObj =
    render L.templates L.sprig tpl (Transformer.context path toMutate otherObj)
  alone : ∀ a, parts = [.action a] → Tight (text a).toList →
    Transformer.replacement path parts toMutate otherObj = .ok (text a)

/-- A template mutation inserts strings verbatim exactly if none of them has a character that
`html/template` escapes, except where the template escapes them itself. -/
theorem insertsVerbatim_iff (hparse : L.templates.parse L.sprig tpl = .ok parts)
    (htags : ∀ s, Piece.text s ∈ parts → '<' ∉ s)
    (h : Inserts L.templates parts (Transformer.context path toMutate otherObj) text) :
    InsertsVerbatim L path tpl parts toMutate otherObj text ↔
      ∀ a, Piece.action a ∈ parts → L.html.escaped a = false → ∀ c ∈ (text a).toList,
        L.html.escape.char c = [c] := by
  refine ⟨fun hv => (replacement_eq_render_iff hparse htags h).mp hv.same, fun hchars => ?_⟩
  have hsame := (replacement_eq_render_iff hparse htags h).mpr hchars
  refine ⟨hsame, fun a hparts htight => ?_⟩
  have halone : (marks L.html text parts).flatMap Mark.plain = (text a).toList := by
    simp [hparts, marks, Piece.marks, Mark.plain, List.flatMap_map]
  rw [hsame, render_marks hparse h, halone, trimList_eq_self htight.head htight.last,
    String.ofList_toList]

end Verbatim

/-- An object with an image, and the template that inserts the current value. -/
def withImage (image : String) : Object where
  members := [("spec", .obj [("image", .str image)])]
  wf := by simp [DataTree.WF, DataTree.WFMembers, Assoc.Sorted]

def valueTemplate : String := "\x7b\x7b .Value \x7d\x7d"

def valueParts : List (Piece Node) := [.action (.action ["Value"] [])]

theorem parse_valueTemplate : fieldTemplates.parse [] valueTemplate = .ok valueParts := rfl

theorem not_opensTag_valueParts : ∀ s, Piece.text s ∈ valueParts → '<' ∉ s := by
  simp [valueParts]

theorem inserts_valueParts (image : String) : Inserts fieldTemplates valueParts
    (Transformer.context (L := fieldLibraries) "spec.image" (withImage image) none)
    fun _ => image := by
  intro a ha
  obtain rfl : a = .action ["Value"] [] := by simpa [valueParts] using ha
  exact ⟨some (.str image), rfl, rfl⟩

theorem insertsVerbatim_image :
    (∀ c ∈ "ubuntu:latest".toList, TextEscape.go.char c = [c]) ∧
    InsertsVerbatim fieldLibraries "spec.image" valueTemplate valueParts
      (withImage "ubuntu:latest") none (fun _ => "ubuntu:latest") := by
  have hchars : ∀ c ∈ "ubuntu:latest".toList, TextEscape.go.char c = [c] := by
    simp [TextEscape.go, replacementTable, Assoc.get?]
  exact ⟨hchars, (insertsVerbatim_iff (L := fieldLibraries) parse_valueTemplate
    not_opensTag_valueParts (inserts_valueParts "ubuntu:latest")).mpr fun _ _ _ => hchars⟩

/-- A string with an ampersand is changed. -/
theorem ampersand_escaped :
    render fieldTemplates [] valueTemplate
      (Transformer.context (L := fieldLibraries) "spec.image" (withImage "a&b") none) = .ok "a&b" ∧
    Transformer.replacement (L := fieldLibraries) "spec.image" valueParts (withImage "a&b") none =
      .ok "a&amp;b" ∧
    ¬ InsertsVerbatim fieldLibraries "spec.image" valueTemplate valueParts (withImage "a&b") none
      (fun _ => "a&b") := by
  have hrender : render fieldTemplates [] valueTemplate
      (Transformer.context (L := fieldLibraries) "spec.image" (withImage "a&b") none) =
      .ok "a&b" := rfl
  have hreplacement : Transformer.replacement (L := fieldLibraries) "spec.image" valueParts
      (withImage "a&b") none = .ok "a&amp;b" := rfl
  refine ⟨hrender, hreplacement, fun h => ?_⟩
  have hsame := h.same
  rw [hreplacement] at hsame
  exact absurd (Except.ok.inj (hsame.trans hrender)) (by decide)

end Mutation
