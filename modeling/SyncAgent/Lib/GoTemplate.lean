import SyncAgent.Lib.Json

/-! A part of Go's `text/template`: texts with actions such as `{{ .Object.metadata.name | f }}`, a
chain of fields that is piped into functions of one string.  `parse` says which templates are in
this part, `render` evaluates them and leaves all others to the rest of the engine. -/

namespace GoTemplate

inductive Node where
  | text (s : List Char)
  | action (chain : List String) (funcs : List String)
deriving DecidableEq

/-- White space as `strings.TrimSpace` knows it. -/
def isSpace (c : Char) : Bool :=
  [0x09, 0x0a, 0x0b, 0x0c, 0x0d, 0x20, 0x85, 0xa0, 0x1680, 0x2028, 0x2029, 0x202f, 0x205f,
    0x3000].contains c.toNat || (0x2000 ≤ c.toNat && c.toNat ≤ 0x200a)

def trimList (s : List Char) : List Char :=
  (((s.dropWhile isSpace).reverse).dropWhile isSpace).reverse

/-- `strings.TrimSpace` -/
def trimSpace (s : String) : String := String.ofList (trimList s.toList)

theorem trimList_eq_self {s : List Char} (hhead : ∀ c ∈ s.head?, isSpace c = false)
    (hlast : ∀ c ∈ s.getLast?, isSpace c = false) : trimList s = s := by
  have hdrop : ∀ l : List Char, (∀ c ∈ l.head?, isSpace c = false) → l.dropWhile isSpace = l := by
    intro l h
    cases l with
    | nil => rfl
    | cons c rest => simp [h c rfl]
  unfold trimList
  rw [hdrop s hhead, hdrop s.reverse (by rwa [List.head?_reverse]), List.reverse_reverse]

/-- Neither the first nor the last character is white space. -/
structure Tight (s : List Char) : Prop where
  head : ∀ c ∈ s.head?, isSpace c = false
  last : ∀ c ∈ s.getLast?, isSpace c = false

namespace Tight

theorem trimSpace_ofList {s : List Char} (h : Tight s) :
    trimSpace (String.ofList s) = String.ofList s := by
  rw [trimSpace, String.toList_ofList, trimList_eq_self h.head h.last]

theorem of_forall {s : List Char} (h : ∀ c ∈ s, isSpace c = false) : Tight s :=
  ⟨fun c hc => h c (List.mem_of_mem_head? hc), fun c hc => h c (List.mem_of_mem_getLast? hc)⟩

theorem of_ends {s : List Char} (h : s.head?.any isSpace = false)
    (h' : s.getLast?.any isSpace = false) : Tight s := by
  refine ⟨fun c hc => ?_, fun c hc => ?_⟩
  · rw [Option.mem_def.mp hc] at h
    exact h
  · rw [Option.mem_def.mp hc] at h'
    exact h'

theorem append {s t : List Char} (hs : Tight s) (ht : Tight t) : Tight (s ++ t) := by
  cases s with
  | nil => exact ht
  | cons c rest =>
    cases t with
    | nil => rwa [List.append_nil]
    | cons d rest' =>
      refine ⟨hs.head, fun x hx => ht.last x ?_⟩
      rwa [List.getLast?_append_of_ne_nil _ (by simp)] at hx

theorem flatMap {α : Type} {f : α → List Char} {l : List α} (h : ∀ a ∈ l, Tight (f a)) :
    Tight (l.flatMap f) := by
  induction l with
  | nil => exact of_forall (by simp)
  | cons a rest ih =>
    rw [List.flatMap_cons]
    exact (h a (.head _)).append (ih fun b hb => h b (.tail _ hb))

end Tight

def isIdentifier (s : List Char) : Bool :=
  match s with
  | [] => false
  | c :: _ => !c.isDigit && s.all fun c => c.isAlphanum || c = '_'

/-- The inside of an action. -/
def parseAction (s : List Char) : Option Node :=
  match (s.splitOn '|').map trimList with
  | ('.' :: names) :: funcs =>
    let parts := names.splitOn '.'
    if parts.all isIdentifier && funcs.all isIdentifier then
      some (.action (parts.map String.ofList) (funcs.map String.ofList))
    else none
  | _ => none

/-- The nodes of a template; `acc` holds what was read of the current text or action, reversed. -/
def scan : Bool → List Char → List Char → Option (List Node)
  | false, acc, '{' :: '{' :: rest => (scan true [] rest).map (.text acc.reverse :: ·)
  | false, acc, c :: rest => scan false (c :: acc) rest
  | false, acc, [] => some [.text acc.reverse]
  | true, acc, '}' :: '}' :: rest =>
    match parseAction acc.reverse with
    | none => none
    | some node => (scan false [] rest).map (node :: ·)
  | true, acc, c :: rest => scan true (c :: acc) rest
  | true, _, [] => none

def parse (template : String) : Option (List Node) := scan false [] template.toList

/-- The parts of the engine that are not modelled: the functions, how a value that is no string is
printed, and all other templates. -/
structure Engine where
  func : String → Option (String → Except String String)
  print : Doc → String
  other : String → Fields → Except String String

/-- The value of a chain of fields in a value.  A key that a map does not have gives no value, and
so do the fields after it. -/
def walk : Doc → List String → Except String (Option Doc)
  | d, [] => .ok (if d = .null then none else some d)
  | d, name :: rest =>
    match d.fields? with
    | none => .error ("can't evaluate field " ++ name)
    | some f =>
      match f.get? name with
      | some d' => walk d' rest
      | none => .ok none

/-- The value of a chain of fields in the data of the template, which is a struct. -/
def evalChain (data : Fields) : List String → Except String (Option Doc)
  | [] => .ok (some (.obj data))
  | name :: rest =>
    match data.get? name with
    | none => .error ("can't evaluate field " ++ name)
    | some d => walk d rest

variable (E : Engine)

/-- A value piped into a function that takes a string. -/
def applyFunc (value : Option Doc) (f : String → Except String String) :
    Except String (Option Doc) :=
  match value with
  | none => .error "invalid value; expected string"
  | some d =>
    match d.str? with
    | none => .error "wrong type for value; expected string"
    | some s => (f s).map fun r => some (.str r)

def applyFuncs : Option Doc → List (String → Except String String) → Except String (Option Doc)
  | v, [] => .ok v
  | v, f :: rest =>
    match applyFunc v f with
    | .error e => .error e
    | .ok v' => applyFuncs v' rest

def printValue : Option Doc → String
  | none => "<no value>"
  | some d => (d.str?).getD (E.print d)

def evalNode (data : Fields) : Node → Option (Except String String)
  | .text s => some (.ok (String.ofList s))
  | .action chain funcs =>
    match funcs.mapM E.func with
    | none => none
    | some fs =>
      match evalChain data chain with
      | .error e => some (.error e)
      | .ok v => some ((applyFuncs v fs).map (printValue E))

/-- The output of the nodes, `none` if a function is not known. -/
def evalNodes (data : Fields) : List Node → Option (Except String String)
  | [] => some (.ok "")
  | node :: rest =>
    match evalNode E data node, evalNodes data rest with
    | some (.ok s), some (.ok t) => some (.ok (s ++ t))
    | some (.error e), some _ => some (.error e)
    | some (.ok _), some (.error e) => some (.error e)
    | _, _ => none

def render (template : String) (data : Fields) : Except String String :=
  match (parse template).bind (evalNodes E data) with
  | some r => r
  | none => E.other template data

/-! ### Functions of any value -/

/-- A function in a pipe: one that takes any value, where no value is passed as nil, or one of the
engine. -/
def stage (any : String → Option (Option Doc → String)) (name : String) :
    Option (Option Doc → Except String (Option Doc)) :=
  match any name with
  | some g => some fun v => .ok (some (.str (g v)))
  | none => (E.func name).map fun g v => applyFunc v g

def evalNodeAny (any : String → Option (Option Doc → String)) (data : Fields) :
    Node → Option (Except String String)
  | .text s => some (.ok (String.ofList s))
  | .action chain funcs =>
    (funcs.mapM (stage E any)).map fun stages =>
      ((evalChain data chain).bind fun v => stages.foldlM (fun v f => f v) v).map (printValue E)

/-- The output of a node, empty if it fails. -/
def nodeOutput (any : String → Option (Option Doc → String)) (data : Fields) (n : Node) : String :=
  ((evalNodeAny E any data n).bind Except.toOption).getD ""

theorem evalNodeAny_nil (any : String → Option (Option Doc → String)) (data : Fields)
    (chain : List String) : evalNodeAny E any data (.action chain []) =
      some ((evalChain data chain).map (printValue E)) := by
  cases h : evalChain data chain with
  | error e => simp [evalNodeAny, h, Except.bind]
  | ok v =>
    simp [evalNodeAny, h, Except.bind]
    rfl

theorem evalNodeAny_single {any : String → Option (Option Doc → String)} {name : String}
    {g : Option Doc → String} (hname : any name = some g) (data : Fields) (chain : List String) :
    evalNodeAny E any data (.action chain [name]) = some ((evalChain data chain).map g) := by
  have hstage : [name].mapM (stage E any) = some [fun v => .ok (some (.str (g v)))] := by
    simp [stage, hname]
  cases h :
      evalChain data chain <;> simp [evalNodeAny, hstage, h, Except.bind, Except.map, printValue]

/-- The output of the nodes when each is evaluated on its own. -/
def joinNodes (eval : Node → Option (Except String String)) :
    List Node → Option (Except String String)
  | [] => some (.ok "")
  | node :: rest =>
    match eval node, joinNodes eval rest with
    | some (.ok s), some (.ok t) => some (.ok (s ++ t))
    | some (.error e), some _ => some (.error e)
    | some (.ok _), some (.error e) => some (.error e)
    | _, _ => none

theorem evalNodes_eq_join (data : Fields) (nodes : List Node) :
    evalNodes E data nodes = joinNodes (evalNode E data) nodes := by
  induction nodes with
  | nil => rfl
  | cons node rest ih =>
    rw [evalNodes, joinNodes, ih]

section Join

variable {eval : Node → Option (Except String String)} {nodes : List Node}

theorem joinNodes_ok {out : Node → String} (h : ∀ n ∈ nodes, eval n = some (.ok (out n))) :
    joinNodes eval nodes = some (.ok (String.ofList (nodes.flatMap fun n => (out n).toList))) := by
  induction nodes with
  | nil => rfl
  | cons node rest ih =>
    rw [joinNodes, h node (.head _), ih fun n hn => h n (.tail _ hn)]
    simp [String.ofList_append]

theorem joinNodes_none {node : Node} (hmem : node ∈ nodes) (h : eval node = none) :
    joinNodes eval nodes = none := by
  induction nodes with
  | nil => cases hmem
  | cons n rest ih =>
    rw [joinNodes]
    rcases List.mem_cons.mp hmem with rfl | hrest
    · rw [h]
    · rw [ih hrest]
      split <;> simp_all

end Join

/-- The engine that also knows functions of any value. -/
def Engine.withAny (any : String → Option (Option Doc → String)) : Engine :=
  { E with
    other := fun template data =>
      match (parse template).bind (joinNodes (evalNodeAny E any data)) with
      | some r => r
      | none => E.other template data }

variable {E}

/-- A template renders to the outputs of its nodes, if the engine itself gives the same for those
that it knows. -/
theorem render_withAny {any : String → Option (Option Doc → String)} {template : String}
    {data : Fields} {nodes : List Node} {out : Node → String} (hparse : parse template = some nodes)
    (hany : ∀ n ∈ nodes, evalNodeAny E any data n = some (.ok (out n)))
    (hown : ∀ n ∈ nodes, evalNode E data n = none ∨ evalNode E data n = some (.ok (out n))) :
    render (E.withAny any) template data =
      .ok (String.ofList (nodes.flatMap fun n => (out n).toList)) := by
  have hsame : evalNode (E.withAny any) data = evalNode E data := by
    funext n
    cases n <;> rfl
  have hother : (E.withAny any).other template data =
      .ok (String.ofList (nodes.flatMap fun n => (out n).toList)) := by
    simp only [Engine.withAny, hparse, Option.bind_some, joinNodes_ok hany]
  rw [render, hparse, Option.bind_some, evalNodes_eq_join, hsame]
  by_cases hknown : ∃ n ∈ nodes, evalNode E data n = none
  · obtain ⟨n, hn, hnone⟩ := hknown
    rw [joinNodes_none hn hnone]
    exact hother
  · rw [joinNodes_ok fun n hn => (hown n hn).resolve_left fun h => hknown ⟨n, hn, h⟩]

/-! ### Templates from their parts -/

theorem length_flatMap_le {α β : Type} {f g : α → List β} {l : List α}
    (hle : ∀ a ∈ l, (f a).length ≤ (g a).length) : (l.flatMap f).length ≤ (l.flatMap g).length := by
  induction l with
  | nil => exact le_rfl
  | cons a rest ih =>
    have hhead := hle a (.head _)
    have htail := ih fun b hb => hle b (.tail _ hb)
    simp only [List.flatMap_cons, List.length_append]
    omega

theorem eq_of_flatMap_eq {α β : Type} {f g : α → List β} {l : List α}
    (hle : ∀ a ∈ l, (f a).length ≤ (g a).length) (h : l.flatMap f = l.flatMap g) :
    ∀ a ∈ l, f a = g a := by
  induction l with
  | nil => simp
  | cons a rest ih =>
    rw [List.flatMap_cons, List.flatMap_cons] at h
    have htail := length_flatMap_le fun b hb => hle b (.tail _ hb)
    have hlen := congrArg List.length h
    simp only [List.length_append] at hlen
    have hhead := hle a (.head _)
    obtain ⟨heq, hflat⟩ := List.append_inj h (by omega)
    intro b hb
    rcases List.mem_cons.mp hb with rfl | hb
    · exact heq
    · exact ih (fun c hc => hle c (.tail _ hc)) hflat b hb

/-- A character of the text, or an action with its inside. -/
inductive Segment where
  | char (c : Char)
  | action (inside : List Char) (node : Node)

namespace Segment

def source : Segment → List Char
  | .char c => [c]
  | .action inside _ => '{' :: '{' :: (inside ++ ['}', '}'])

/-- The segment is read back from its source. -/
def WellFormed : Segment → Prop
  | .char c => c ≠ '{'
  | .action inside node => '}' ∉ inside ∧ parseAction inside = some node

def output (out : Node → String) : Segment → List Char
  | .char c => [c]
  | .action _ node => (out node).toList

end Segment

/-- The nodes of segments; `acc` is the text before them, reversed. -/
def segmentNodes : List Char → List Segment → List Node
  | acc, [] => [.text acc.reverse]
  | acc, .char c :: rest => segmentNodes (c :: acc) rest
  | acc, .action _ node :: rest => .text acc.reverse :: node :: segmentNodes [] rest

theorem scan_inside {inside : List Char} (h : '}' ∉ inside) (acc rest : List Char) :
    scan true acc (inside ++ '}' :: '}' :: rest) =
      (parseAction (acc.reverse ++ inside)).bind fun node =>
      (scan false [] rest).map (node :: ·) := by
  induction inside generalizing acc with
  | nil =>
    rw [List.nil_append, scan, List.append_nil]
    cases parseAction acc.reverse <;> rfl
  | cons c inside ih =>
    rw [List.mem_cons, not_or] at h
    rw [List.cons_append, scan, ih h.2]
    · simp
    · rintro _ rfl
      exact absurd rfl h.1

theorem scan_segments {segments : List Segment} (h : ∀ g ∈ segments, g.WellFormed)
    (acc : List Char) :
    scan false acc (segments.flatMap Segment.source) = some (segmentNodes acc segments) := by
  induction segments generalizing acc with
  | nil => rfl
  | cons g rest ih =>
    have hg := h g (.head _)
    have ih := ih fun g' hg' => h g' (.tail _ hg')
    cases g with
    | char c =>
      rw [List.flatMap_cons, Segment.source, List.singleton_append, scan, ih]
      · rfl
      · rintro _ rfl
        exact absurd rfl hg
    | action inside node =>
      rw [List.flatMap_cons, Segment.source, List.cons_append, List.cons_append, List.append_assoc,
        scan, List.cons_append, List.singleton_append, scan_inside hg.1, List.reverse_nil,
        List.nil_append, hg.2, Option.bind_some, ih]
      rfl

theorem output_segmentNodes {out : Node → String} (htext : ∀ s, out (.text s) = String.ofList s)
    (segments : List Segment) (acc : List Char) :
    ((segmentNodes acc segments).flatMap fun n => (out n).toList) =
      acc.reverse ++ segments.flatMap (Segment.output out) := by
  induction segments generalizing acc with
  | nil => simp [segmentNodes, htext]
  | cons g rest ih =>
    cases g with
    | char c => simp [segmentNodes, ih, Segment.output]
    | action inside node => simp [segmentNodes, ih, Segment.output, htext]

theorem mem_segmentNodes {segments : List Segment} {acc : List Char} {n : Node}
    (h : n ∈ segmentNodes acc segments) :
    (∃ s, n = .text s) ∨ ∃ inside, Segment.action inside n ∈ segments := by
  induction segments generalizing acc with
  | nil =>
    rw [segmentNodes, List.mem_singleton] at h
    exact .inl ⟨_, h⟩
  | cons g rest ih =>
    cases g with
    | char c => exact (ih h).imp_right fun ⟨inside, hmem⟩ => ⟨inside, .tail _ hmem⟩
    | action inside node =>
      rw [segmentNodes, List.mem_cons, List.mem_cons] at h
      rcases h with rfl | rfl | h
      · exact .inl ⟨_, rfl⟩
      · exact .inr ⟨inside, .head _⟩
      · exact (ih h).imp_right fun ⟨inside', hmem⟩ => ⟨inside', .tail _ hmem⟩

end GoTemplate
