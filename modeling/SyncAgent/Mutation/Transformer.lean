import SyncAgent.Lib.Float64
import SyncAgent.Lib.HtmlTemplate
import SyncAgent.Lib.DataTree
import SyncAgent.Sync.PublishedResource

/-! The mutations of an object (`internal/mutation`).  Every step writes the object as a JSON
document, changes the document and reads the object back, so numbers pass through the encoder and
the decoder.  The libraries that evaluate paths, regular expressions, CEL and templates are
parameters. -/

namespace Mutation

open Float64 GoTemplate Sync

/-! ### Objects and documents -/

/-- A number in an unstructured object. -/
inductive Number where
  | int (n : Int64)
  | double (x : Double)
deriving DecidableEq

/-- A value of type `any`. -/
abbrev Value := DataTree Number

/-- An unstructured object, `map[string]any`. -/
structure Object where
  members : List (String × Value)
  wf : (DataTree.obj members).WF

def Object.tree (o : Object) : Value := .obj o.members

/-- A JSON document.  Numbers stand for what their literals say. -/
structure Document where
  tree : DataTree ℚ
  wf : tree.WF

namespace Document

def str (s : String) : Document := ⟨.str s, trivial⟩

def arr (items : List Document) : Document :=
  ⟨.arr (items.map tree), DataTree.wfItems_iff.mpr (List.forall_mem_map.mpr fun d _ => d.wf)⟩

/-- The object with the entries set one after the other. -/
def ofEntries : List (String × Document) → List (String × DataTree ℚ)
  | [] => []
  | (k, d) :: rest => Assoc.insert k d.tree (ofEntries rest)

theorem ofEntries_wf (entries : List (String × Document)) :
    (DataTree.obj (ofEntries entries)).WF := by
  induction entries with
  | nil => exact ⟨List.Pairwise.nil, trivial⟩
  | cons e rest ih =>
    refine ⟨ih.1.insert e.1 e.2.tree, DataTree.wfMembers_iff.mpr fun x hx => ?_⟩
    rcases Assoc.mem_insert hx with rfl | hx
    · exact e.2.wf
    · exact DataTree.wfMembers_iff.mp ih.2 x hx

def obj (entries : List (String × Document)) : Document := ⟨_, ofEntries_wf entries⟩

end Document

/-- How `encoding/json` writes a double: as a literal that is read back as the same double. -/
structure NumberFormat where
  print : Double → ℚ
  nearest_print : ∀ x, nearest (print x) = some x

def NumberFormat.literal (F : NumberFormat) : Number → ℚ
  | .int n => n.toInt
  | .double x => F.print x

/-- A number that is decoded into a value of type `any` is the nearest double. -/
def decodeNumber (q : ℚ) : Option Number := (nearest q).map .double

/-- `EncodeObject` -/
def encodeObject (F : NumberFormat) (obj : Object) : Document :=
  ⟨obj.tree.map F.literal, DataTree.wf_map _ obj.wf⟩

/-- `DecodeObject`.  The error for a number that is out of range also has the literal. -/
def decodeObject (encoded : Document) : Except Error Object :=
  match h : encoded.tree.mapM decodeNumber with
  | some (.obj members) => .ok ⟨members, DataTree.wf_mapM encoded.wf h⟩
  | some .null => .ok ⟨[], List.Pairwise.nil, trivial⟩
  | some _ =>
    .error (.new "json: cannot unmarshal value into Go value of type map[string]interface \x7b\x7d")
  | none => .error (.new "json: cannot unmarshal number into Go value of type float64")

/-! ### Libraries -/

/-- A CEL value. -/
inductive CelValue (σ : Type) where
  | scalar (value : σ)
  | list (items : List (CelValue σ))
  | map (entries : List (σ × CelValue σ))

/-- `templateMutationContext`, the data of a template. -/
structure TemplateMutationContext (ρ : Type) where
  value : ρ
  localObject : Object
  remoteObject : Option Object

/-- The libraries under the transformers: `gjson` and `sjson` with the locations that a path
addresses, `regexp`, CEL, `text/template` and `html/template` with the functions of `sprig`, and
`encoding/json`. -/
structure Libraries where
  Result : Type
  get : Document → String → Result
  resultString : Result → String
  resultValue : Result → Value
  set : Document → String → Document → Except String Document
  delete : Document → String → Except String Document
  addresses : String → List DataTree.Key → Prop
  set_other :
    ∀ {doc : Document} {path : String} {value doc' : Document} {loc : List DataTree.Key} {q : ℚ},
    set doc path value = .ok doc' → ¬ addresses path loc → doc.tree.at? loc = some (.num q) →
      doc'.tree.at? loc = some (.num q)
  delete_other :
    ∀ {doc : Document} {path : String} {doc' : Document} {loc : List DataTree.Key} {q : ℚ},
    delete doc path = .ok doc' → ¬ addresses path loc → doc.tree.at? loc = some (.num q) →
      doc'.tree.at? loc = some (.num q)
  Regex : Type
  compileRegex : String → Except String Regex
  replaceAllString : Regex → String → String → String
  Ast : Type
  Program : Type
  Scalar : Type
  compileCEL : String → Except String Ast
  program : Ast → Except String Program
  evalCEL : Program → Value → Object → Option Object → Except String (CelValue Scalar)
  native : Scalar → Except String Document
  nativeKey : Scalar → Except String String
  Pipeline : Type
  TemplateValue : Type
  templates : Package Pipeline (TemplateMutationContext Result) TemplateValue
  html : Html Pipeline (TemplateMutationContext Result) TemplateValue
  sprig : List String
  json : NumberFormat

/-- What a method call on a nil pointer ends in. -/
def nilDereference : Error := .new "invalid memory address or nil pointer dereference"

/-- `fmt.Errorf("text: %w", err)` around an error of a library. -/
def wrapText {α : Type} (text : String) (r : Except String α) : Except Error α :=
  r.mapError fun e => .wrapped text (.new e)

section CelToNative

variable {σ : Type} (native : σ → Except String Document) (nativeKey : σ → Except String String)

mutual

def celToNative : CelValue σ → Except String Document
  | .scalar v => native v
  | .list items => (celItems items).map Document.arr
  | .map entries => (celEntries entries).map Document.obj

def celItems : List (CelValue σ) → Except String (List Document)
  | [] => .ok []
  | v :: rest => do
    let d ← celToNative v
    let ds ← celItems rest
    return d :: ds

def celEntries : List (σ × CelValue σ) → Except String (List (String × Document))
  | [] => .ok []
  | (key, v) :: rest => do
    let k ← nativeKey key
    let d ← celToNative v
    let ds ← celEntries rest
    return (k, d) :: ds

end

end CelToNative

/-! ### Transformers -/

variable (L : Libraries)

/-- A step, with its path. -/
inductive Transformer where
  | delete (path : String)
  | regex (path replacement : String) (expr : Option L.Regex)
  | template (path : String) (tpl : List (Piece L.Pipeline))
  | cel (path : String) (prg : L.Program)

namespace Transformer

variable {L}

def path : Transformer L → String
  | .delete path => path
  | .regex path _ _ => path
  | .template path _ => path
  | .cel path _ => path

/-- The data of the template at a path. -/
def context (path : String) (toMutate : Object) (otherObj : Option Object) :
    TemplateMutationContext L.Result where
  value := L.get (encodeObject L.json toMutate) path
  localObject := toMutate
  remoteObject := otherObj

/-- The text that a template step writes. -/
def replacement (path : String) (tpl : List (Piece L.Pipeline)) (toMutate : Object)
    (otherObj : Option Object) : Except Error String :=
  match L.templates.executeHtml L.html tpl (context path toMutate otherObj) with
  | .error e => .error (.wrapped "failed to execute template" (.new e))
  | .ok out => .ok (trimSpace (String.ofList out))

variable (L) in
/-- `ApplyJSON` of a step that deletes. -/
def deleteJSON (path : String) (toMutate : Document) : Except Error Document :=
  wrapText ("failed to delete value @ " ++ path) (L.delete toMutate path)

/-- `ApplyJSON` of a step with a regular expression, `none` for the empty pattern. -/
def regexJSON (path replacement : String) (expr : Option L.Regex) (toMutate : Document) :
    Except Error Document :=
  match expr with
  | none => (L.set toMutate path (.str replacement)).mapError .new
  | some expr =>
    let strVal := L.resultString (L.get toMutate path)
    (L.set toMutate path (.str (L.replaceAllString expr strVal replacement))).mapError .new

/-- For a step on documents the aggregate also encodes the other object, through its pointer. -/
def encodeOther (otherObj : Option Object) (mutated : Except Error Document) :
    Except Error Document :=
  match otherObj with
  | none => .error nilDereference
  | some _ => mutated

/-- The document that a step decodes in the end. -/
def updated (t : Transformer L) (toMutate : Object) (otherObj : Option Object) :
    Except Error Document :=
  let encoded := encodeObject L.json toMutate
  match t with
  | .delete path => encodeOther otherObj (deleteJSON L path encoded)
  | .regex path replacement expr => encodeOther otherObj (regexJSON path replacement expr encoded)
  | .template path tpl => do
    let replacement ← replacement path tpl toMutate otherObj
    wrapText "failed to set updated value" (L.set encoded path (.str replacement))
  | .cel path prg => do
    let out ← wrapText "failed to evaluate CEL expression"
      (L.evalCEL prg (L.resultValue (L.get encoded path)) toMutate otherObj)
    let value ← wrapText "failed to convert CEL result to native value"
      (celToNative L.native L.nativeKey out)
    wrapText "failed to set updated value" (L.set encoded path value)

def apply (t : Transformer L) (toMutate : Object) (otherObj : Option Object) :
    Except Error Object :=
  (t.updated toMutate otherObj).bind decodeObject

end Transformer

/-- The steps of an aggregate; `none` is a nil aggregate. -/
abbrev AggregateTransformer := Option (List (Transformer L))

variable {L}

/-- The loop over the steps. -/
def applyAll : List (Transformer L) → Object → Option Object → Except Error Object
  | [], toMutate, _ => .ok toMutate
  | t :: rest, toMutate, otherObj =>
    match t.apply toMutate otherObj with
    | .error e => .error e
    | .ok toMutate => applyAll rest toMutate otherObj

def AggregateTransformer.apply (m : AggregateTransformer L) (toMutate : Object)
    (otherObj : Option Object) : Except Error Object :=
  match m with
  | none => .ok toMutate
  | some transformers => applyAll transformers toMutate otherObj

/-! ### Mutators -/

structure ResourceDeleteMutation where
  path : String

structure ResourceRegexMutation where
  path : String
  pattern : String
  replacement : String

structure ResourceTemplateMutation where
  path : String
  template : String

structure ResourceCELMutation where
  path : String
  expression : String

structure ResourceMutation where
  delete : Option ResourceDeleteMutation := none
  regex : Option ResourceRegexMutation := none
  template : Option ResourceTemplateMutation := none
  cel : Option ResourceCELMutation := none

structure ResourceMutationSpec where
  spec : List ResourceMutation
  status : List ResourceMutation

variable (L)

def newDelete (mutation : ResourceDeleteMutation) : Except Error (Transformer L) :=
    .ok (.delete mutation.path)

def newRegex (mutation : ResourceRegexMutation) : Except Error (Transformer L) :=
  if mutation.pattern ≠ "" then
    (wrapText ("invalid pattern " ++ mutation.pattern.quote) (L.compileRegex mutation.pattern)).map
      fun expr =>
      .regex mutation.path mutation.replacement (some expr)
  else .ok (.regex mutation.path mutation.replacement none)

def newTemplate (mutation : ResourceTemplateMutation) : Except Error (Transformer L) :=
  (wrapText ("failed to parse template " ++ mutation.template.quote)
    (L.templates.parse L.sprig mutation.template)).map fun tpl => .template mutation.path tpl

def newCEL (mutation : ResourceCELMutation) : Except Error (Transformer L) := do
  let expr ← wrapText "failed to compile CEL expression" (L.compileCEL mutation.expression)
  let prg ← wrapText "failed to create CEL program" (L.program expr)
  return .cel mutation.path prg

def newTransformer (mutation : ResourceMutation) : Except Error (Transformer L) :=
  match mutation.delete, mutation.regex, mutation.template, mutation.cel with
  | some m, _, _, _ => newDelete L m
  | none, some m, _, _ => newRegex L m
  | none, none, some m, _ => newTemplate L m
  | none, none, none, some m => newCEL L m
  | none, none, none, none => .error (.new "no valid mutation mechanism provided")

def createAggregatedTransformer (mutations : List ResourceMutation) :
    Except Error (AggregateTransformer L) :=
  (mutations.mapM (newTransformer L)).map some

/-- `mutator` -/
structure Mutator where
  spec : AggregateTransformer L
  status : AggregateTransformer L

/-- `NewMutator`; there is no mutator without a specification. -/
def newMutator : Option ResourceMutationSpec → Except Error (Option (Mutator L))
  | none => .ok none
  | some mutation => do
    let spec ← (createAggregatedTransformer L mutation.spec).mapError
      (.wrapped "cannot create transformer for spec")
    let status ← (createAggregatedTransformer L mutation.status).mapError
      (.wrapped "cannot create transformer for status")
    return some { spec, status }

variable {L}

def Mutator.mutateSpec (m : Option (Mutator L)) (toMutate : Object) (otherObj : Option Object) :
    Except Error Object :=
  match m with
  | none => .ok toMutate
  | some m => m.spec.apply toMutate otherObj

def Mutator.mutateStatus (m : Option (Mutator L)) (toMutate : Object) (otherObj : Option Object) :
    Except Error Object :=
  match m with
  | none => .ok toMutate
  | some m => m.status.apply toMutate otherObj

end Mutation
