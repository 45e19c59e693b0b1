import SyncAgent.Lib.GoTemplate

/-! `text/template` and `html/template` on the same templates.  The packages share their parser and
the evaluation of pipelines; `html/template` escapes what an action inserts.  Templates here are
lists of texts and actions with pipelines of any kind. -/

namespace GoTemplate

/-- A part of a parsed template. -/
inductive Piece (α : Type) where
  | text (s : List Char)
  | action (pipeline : α)

/-- What the packages share.  `string?` says which values are strings, or print as one through their
`String` method.  A template is parsed with the names of the functions that it may use; more
functions do not change how it is read. -/
structure Package (α δ ν : Type) where
  parse : List String → String → Except String (List (Piece α))
  eval : α → δ → Except String ν
  string? : ν → Option String
  print : ν → String
  parse_append : ∀ {funcs more : List String} {template : String} {parts : List (Piece α)},
    parse funcs template = .ok parts → parse (funcs ++ more) template = .ok parts

/-- How `html/template` escapes a character that is inserted into a text.  Besides the named
characters it may escape others, but no white space. -/
structure TextEscape where
  char : Char → List Char
  special : ∀ c ∈ ['&', '<', '>', '\'', '"'], char c ≠ [c]
  space : ∀ c, isSpace c = true → char c = [c]
  solid : ∀ c, isSpace c = false → char c ≠ [] ∧ ∀ d ∈ char c, isSpace d = false

/-- The part of `html/template` that is not modelled: which pipelines end in the predefined escaper
`html`, whose output is not escaped again, how values that are no strings are printed, and what is
done to templates with tags, where an action need not be in a text. -/
structure Html (α δ ν : Type) where
  escape : TextEscape
  escaped : α → Bool
  print : ν → String
  tags : List (Piece α) → δ → Except String (List Char)

variable {α δ ν : Type}

/-- The output of the parts up to the first error. -/
def outputParts (out : α → Except String (List Char)) : List (Piece α) → Except String (List Char)
  | [] => .ok []
  | .text s :: rest => (outputParts out rest).map (s ++ ·)
  | .action a :: rest =>
    match out a with
    | .error e => .error e
    | .ok s => (outputParts out rest).map (s ++ ·)

namespace Package

variable (P : Package α δ ν) (H : Html α δ ν)

/-- `Execute` of `text/template` -/
def execute (parts : List (Piece α)) (data : δ) : Except String (List Char) :=
  outputParts (fun a => (P.eval a data).map fun v => ((P.string? v).getD (P.print v)).toList) parts

/-- A text that opens a tag. -/
def opensTag : Piece α → Bool
  | .text s => s.contains '<'
  | .action _ => false

/-- `Execute` of `html/template` -/
def executeHtml (parts : List (Piece α)) (data : δ) : Except String (List Char) :=
  if parts.any opensTag then H.tags parts data
  else outputParts (fun a => (P.eval a data).map fun v =>
    if H.escaped a then ((P.string? v).getD (P.print v)).toList
    else ((P.string? v).getD (H.print v)).toList.flatMap H.escape.char) parts

end Package

/-- What Go's `html/template` puts for some characters in a text. -/
def replacementTable : List (Char × List Char) :=
  [('\x00', ['\uFFFD']), ('"', "&#34;".toList), ('&', "&amp;".toList), ('\'', "&#39;".toList),
    ('+', "&#43;".toList), ('<', "&lt;".toList), ('>', "&gt;".toList)]

theorem replacementTable_solid {c : Char} {s : List Char}
    (h : Assoc.get? c replacementTable = some s) :
    isSpace c = false ∧ s ≠ [] ∧ ∀ d ∈ s, isSpace d = false := by
  have htable : (replacementTable.all fun e =>
      !isSpace e.1 && !e.2.isEmpty && e.2.all fun d => !isSpace d) = true := rfl
  have hentry := List.all_eq_true.mp htable _ (Assoc.mem_of_get? h)
  simpa [and_assoc] using hentry

def TextEscape.go : TextEscape where
  char c := (Assoc.get? c replacementTable).getD [c]
  special := by simp [replacementTable, Assoc.get?]
  space c hc := by
    cases h : Assoc.get? c replacementTable with
    | none => rfl
    | some s =>
      have hsolid := (replacementTable_solid h).1
      rw [hc] at hsolid
      cases hsolid
  solid c hc := by
    cases h : Assoc.get? c replacementTable with
    | none => exact ⟨by simp, by simpa using hc⟩
    | some s => exact (replacementTable_solid h).2

/-! ### Templates of field chains -/

/-- The action ends in the predefined escaper. -/
def Node.escaped : Node → Bool
  | .text _ => false
  | .action _ funcs => funcs.getLast? = some "html"

/-- The functions that a node uses. -/
def Node.funcs : Node → List String
  | .text _ => []
  | .action _ funcs => funcs

/-- The part of a template that a node is; an empty text is none. -/
def Node.parts : Node → List (Piece Node)
  | .text [] => []
  | .text (c :: s) => [.text (c :: s)]
  | .action chain funcs => [.action (.action chain funcs)]

/-- The parser of the templates in `GoTemplate`, with the names of the functions. -/
def parseParts (funcs : List String) (template : String) : Except String (List (Piece Node)) :=
  match parse template with
  | none => .error "unexpected token in action"
  | some nodes =>
    if ∀ n ∈ nodes, ∀ f ∈ n.funcs, f ∈ funcs then .ok (nodes.flatMap Node.parts)
    else .error "function not defined"

theorem parseParts_eq_ok {funcs : List String} {template : String} {parts : List (Piece Node)}
    (h : parseParts funcs template = .ok parts) :
    ∃ nodes, parse template = some nodes ∧ (∀ n ∈ nodes, ∀ f ∈ n.funcs, f ∈ funcs) ∧
      parts = nodes.flatMap Node.parts := by
  unfold parseParts at h
  split at h
  · cases h
  · next nodes hnodes =>
    split at h
    · next hfuncs => exact ⟨nodes, hnodes, hfuncs, (Except.ok.inj h).symm⟩
    · cases h

theorem parseParts_append {funcs more : List String} {template : String} {parts : List (Piece Node)}
    (h : parseParts funcs template = .ok parts) :
    parseParts (funcs ++ more) template = .ok parts := by
  obtain ⟨nodes, hnodes, hfuncs, rfl⟩ := parseParts_eq_ok h
  simp only [parseParts, hnodes]
  exact if_pos fun n hn f hf => List.mem_append_left _ (hfuncs n hn f hf)

/-- The modelled part of `text/template` as such a package. -/
def Engine.package (E : Engine) : Package Node Fields (Option Doc) where
  parse := parseParts
  eval node data :=
    match node with
    | .text _ => .error "no action"
    | .action chain funcs =>
      match funcs.mapM E.func with
      | none => .error "function not defined"
      | some fs => (evalChain data chain).bind fun v => applyFuncs v fs
  string? v := v.bind Doc.str?
  print := printValue E
  parse_append := parseParts_append

theorem string?_getD_printValue (E : Engine) (v : Option Doc) :
    (v.bind Doc.str?).getD (printValue E v) = printValue E v := by
  cases v with
  | none => rfl
  | some d => cases h : d.str? <;> simp [printValue, h]

theorem mapM_func {E : Engine} {funcs : List String}
    (h : ∀ f ∈ funcs, (E.func f).isSome = true) : ∃ fs, funcs.mapM E.func = some fs := by
  induction funcs with
  | nil => exact ⟨[], rfl⟩
  | cons f rest ih =>
    obtain ⟨hf, hrest⟩ := List.forall_mem_cons.mp h
    obtain ⟨g, hg⟩ := Option.isSome_iff_exists.mp hf
    obtain ⟨gs, hgs⟩ := ih hrest
    exact ⟨g :: gs, by simp [List.mapM_cons, hg, hgs]⟩

theorem evalNode_package {E : Engine} (data : Fields) (chain funcs : List String)
    (h : ∀ f ∈ funcs, (E.func f).isSome = true) :
    evalNode E data (.action chain funcs) = some ((E.package.eval (.action chain funcs) data).map
      fun v => (E.package.string? v).getD (E.package.print v)) := by
  obtain ⟨fs, hfs⟩ := mapM_func h
  have hprint : (fun v : Option Doc => (v.bind Doc.str?).getD (printValue E v)) = printValue E :=
    funext (string?_getD_printValue E)
  simp only [evalNode, Engine.package, hfs, hprint]
  cases evalChain data chain <;> rfl

theorem evalNodes_package {E : Engine} (data : Fields) {nodes : List Node}
    (h : ∀ n ∈ nodes, ∀ f ∈ n.funcs, (E.func f).isSome = true) :
    evalNodes E data nodes =
      some ((E.package.execute (nodes.flatMap Node.parts) data).map String.ofList) := by
  induction nodes with
  | nil => rfl
  | cons node rest ih =>
    obtain ⟨hnode, hrest⟩ := List.forall_mem_cons.mp h
    rw [evalNodes, ih hrest, List.flatMap_cons]
    cases node with
    | text s =>
      cases s with
      | nil =>
        simp only [evalNode, Node.parts, List.nil_append]
        cases E.package.execute (rest.flatMap Node.parts) data with
        | error e => rfl
        | ok t => simp [Except.map]
      | cons c s =>
        simp only [evalNode, Node.parts, Package.execute, List.singleton_append, outputParts]
        cases outputParts _ (rest.flatMap Node.parts) with
        | error e => rfl
        | ok t => simp [Except.map, String.ofList_append, String.append_assoc]
    | action chain funcs =>
      rw [evalNode_package data chain funcs hnode]
      simp only [Node.parts, Package.execute, List.singleton_append, outputParts]
      cases E.package.eval (.action chain funcs) data with
      | error e => rfl
      | ok v =>
        cases outputParts _ (rest.flatMap Node.parts) with
        | error e => rfl
        | ok t => simp [Except.map, String.ofList_append]

/-! ### White space around expanded texts -/

section Trim

variable {β : Type} {p : β → Bool} {f : β → List Char}

/-- `f` gives one white space for an element in `p`, and text without white space for others. -/
structure Expands (p : β → Bool) (f : β → List Char) : Prop where
  space : ∀ b, p b = true → ∃ c, isSpace c = true ∧ f b = [c]
  solid : ∀ b, p b = false → f b ≠ [] ∧ ∀ c ∈ f b, isSpace c = false

theorem Expands.reverse (h : Expands p f) : Expands p (List.reverse ∘ f) := by
  refine ⟨fun b hb => ?_, fun b hb => ?_⟩
  · obtain ⟨c, hc, hf⟩ := h.space b hb
    exact ⟨c, hc, by rw [Function.comp_apply, hf]; rfl⟩
  · obtain ⟨hne, hsolid⟩ := h.solid b hb
    exact ⟨by simpa using hne, fun c hc => hsolid c (List.mem_reverse.mp hc)⟩

theorem Expands.dropWhile_flatMap (h : Expands p f) (l : List β) :
    (l.flatMap f).dropWhile isSpace = (l.dropWhile p).flatMap f := by
  induction l with
  | nil => rfl
  | cons b rest ih =>
    cases hb : p b with
    | true =>
      obtain ⟨c, hc, hf⟩ := h.space b hb
      rw [List.dropWhile_cons_of_pos hb, ← ih, List.flatMap_cons, hf, List.singleton_append,
        List.dropWhile_cons_of_pos hc]
    | false =>
      obtain ⟨hne, hsolid⟩ := h.solid b hb
      rw [List.dropWhile_cons_of_neg (by simp [hb]), List.flatMap_cons]
      cases hf : f b with
      | nil => exact absurd hf hne
      | cons c cs =>
        have hc := hsolid c (by rw [hf]; exact List.mem_cons_self)
        rw [List.cons_append, List.dropWhile_cons_of_neg (by simp [hc])]

/-- A list without the elements in `p` at its ends. -/
def trimBy (p : β → Bool) (l : List β) : List β :=
  (((l.dropWhile p).reverse).dropWhile p).reverse

theorem Expands.trimList_flatMap (h : Expands p f) (l : List β) :
    trimList (l.flatMap f) = (trimBy p l).flatMap f := by
  unfold trimList trimBy
  rw [h.dropWhile_flatMap, List.reverse_flatMap, h.reverse.dropWhile_flatMap, List.reverse_flatMap]
  simp [Function.comp_def]

theorem mem_dropWhile {b : β} {l : List β} (hb : b ∈ l) (hp : p b = false) : b ∈ l.dropWhile p := by
  induction l with
  | nil => cases hb
  | cons a rest ih =>
    rw [List.dropWhile_cons]
    split
    · next ha =>
      rcases List.mem_cons.mp hb with rfl | hb
      · rw [hp] at ha
        cases ha
      · exact ih hb
    · exact hb

theorem mem_trimBy {b : β} {l : List β} (hb : b ∈ l) (hp : p b = false) : b ∈ trimBy p l :=
  List.mem_reverse.mpr (mem_dropWhile (List.mem_reverse.mpr (mem_dropWhile hb hp)) hp)

/-- Two expansions, one at most as long as the other on each element, are the same text after
trimming only if they are the same on each element. -/
theorem Expands.eq_of_trimList_eq {g : β → List Char} (hf : Expands p f) (hg : Expands p g)
    (hspace : ∀ b, p b = true → f b = g b) {l : List β}
    (hle : ∀ b, (f b).length ≤ (g b).length)
    (h : trimList (l.flatMap f) = trimList (l.flatMap g)) : ∀ b ∈ l, f b = g b := by
  rw [hf.trimList_flatMap, hg.trimList_flatMap] at h
  intro b hb
  cases hp : p b with
  | true => exact hspace b hp
  | false => exact eq_of_flatMap_eq (fun a _ => hle a) h b (mem_trimBy hb hp)

end Trim

/-! ### What the packages insert -/

/-- A character of an output, and whether an action has inserted it without an escaper of its
own. -/
structure Mark where
  char : Char
  inserted : Bool

namespace Mark

def plain (m : Mark) : List Char := [m.char]

def escaped (E : TextEscape) (m : Mark) : List Char :=
  if m.inserted then E.char m.char else [m.char]

theorem expands_plain : Expands (fun m : Mark => isSpace m.char) plain :=
  ⟨fun m h => ⟨m.char, h, rfl⟩, fun m h => ⟨by simp [plain], by simpa [plain] using h⟩⟩

theorem expands_escaped (E : TextEscape) :
    Expands (fun m : Mark => isSpace m.char) (escaped E) := by
  refine ⟨fun m h => ⟨m.char, h, ?_⟩, fun m h => ?_⟩
  · unfold escaped
    split
    · exact E.space m.char h
    · rfl
  · unfold escaped
    split
    · exact E.solid m.char h
    · exact ⟨by simp, by simpa using h⟩

/-- Escaping changes the trimmed output unless it changes no character. -/
theorem trimList_escaped_iff (E : TextEscape) (l : List Mark) :
    trimList (l.flatMap plain) = trimList (l.flatMap (escaped E)) ↔
      ∀ m ∈ l, m.inserted = true → E.char m.char = [m.char] := by
  have hiff : ∀ m : Mark, plain m = escaped E m ↔
      (m.inserted = true → E.char m.char = [m.char]) := by
    intro m
    unfold plain escaped
    split
    · next h => simp [h, eq_comm]
    · next h => simp [h]
  have hlength : ∀ m : Mark, (plain m).length ≤ (escaped E m).length := by
    intro m
    unfold escaped
    split
    · cases hs : isSpace m.char with
      | true => simp [plain, E.space _ hs]
      | false => simpa [plain, Nat.one_le_iff_ne_zero] using (E.solid _ hs).1
    · exact le_rfl
  constructor
  · intro h m hm
    refine (hiff m).mp
      (expands_plain.eq_of_trimList_eq (expands_escaped E) (fun m hm => ?_) hlength h
      m hm)
    exact (hiff m).mpr fun _ => E.space _ hm
  · intro h
    rw [List.flatMap_congr fun m hm => (hiff m).mpr (h m hm)]

end Mark

section Outputs

variable (P : Package α δ ν) (H : Html α δ ν) {parts : List (Piece α)}
    {data : δ} {text : α → String}

/-- The characters of the output when each action inserts its text. -/
def Piece.marks (text : α → String) : Piece α → List Mark
  | .text s => s.map (⟨·, false⟩)
  | .action a => (text a).toList.map (⟨·, !H.escaped a⟩)

def marks (text : α → String) (parts : List (Piece α)) : List Mark :=
  parts.flatMap (Piece.marks H text)

variable {H}

theorem marks_cons (part : Piece α) (rest : List (Piece α)) :
    marks H text (part :: rest) = part.marks H text ++ marks H text rest := List.flatMap_cons ..

theorem outputParts_marks {out : α → Except String (List Char)} {f : Mark → List Char}
    (htext : ∀ c, f ⟨c, false⟩ = [c])
    (hout : ∀ a, Piece.action a ∈ parts →
      out a = .ok ((text a).toList.flatMap fun c => f ⟨c, !H.escaped a⟩)) :
    outputParts out parts = .ok ((marks H text parts).flatMap f) := by
  induction parts with
  | nil => rfl
  | cons part rest ih =>
    have ih := ih fun a ha => hout a (List.mem_cons_of_mem _ ha)
    rw [marks_cons, List.flatMap_append]
    cases part with
    | text s =>
      have hs : ((Piece.text s).marks H text).flatMap f = s := by
        simp [Piece.marks, List.flatMap_map, htext]
      rw [outputParts, ih, hs]
      rfl
    | action a =>
      rw [outputParts, hout a List.mem_cons_self, ih, Piece.marks, List.flatMap_map]
      rfl

/-- The pipelines of the parts evaluate to the given strings. -/
def Inserts (P : Package α δ ν) (parts : List (Piece α)) (data : δ) (text : α → String) : Prop :=
  ∀ a, Piece.action a ∈ parts → ∃ v, P.eval a data = .ok v ∧ P.string? v = some (text a)

variable {P}

variable (H) in
theorem execute_marks (h : Inserts P parts data text) :
    P.execute parts data = .ok ((marks H text parts).flatMap Mark.plain) := by
  refine outputParts_marks (fun _ => rfl) fun a ha => ?_
  obtain ⟨v, hv, hs⟩ := h a ha
  simp [hv, hs, Mark.plain, Except.map]

variable (H) in
theorem executeHtml_marks (h : Inserts P parts data text)
    (htags : ∀ s, Piece.text s ∈ parts → '<' ∉ s) :
    P.executeHtml H parts data = .ok ((marks H text parts).flatMap (Mark.escaped H.escape)) := by
  have hany : parts.any Package.opensTag = false := by
    rw [List.any_eq_false]
    intro part hpart
    cases part with
    | text s => simpa [Package.opensTag] using htags s hpart
    | action a => simp [Package.opensTag]
  rw [Package.executeHtml, hany, if_neg Bool.false_ne_true]
  refine outputParts_marks (fun _ => rfl) fun a ha => ?_
  obtain ⟨v, hv, hs⟩ := h a ha
  cases H.escaped a <;> simp [hv, hs, Mark.escaped, Except.map]

theorem mem_marks_inserted {c : Char} : (⟨c, true⟩ : Mark) ∈ marks H text parts ↔
    ∃ a, Piece.action a ∈ parts ∧ H.escaped a = false ∧ c ∈ (text a).toList := by
  unfold marks
  rw [List.mem_flatMap]
  constructor
  · rintro ⟨part, hpart, hc⟩
    cases part with
    | text s => simp [Piece.marks] at hc
    | action a => exact ⟨a, hpart, by simpa [Piece.marks, and_comm] using hc⟩
  · rintro ⟨a, ha, hescaped, hc⟩
    exact ⟨.action a, ha, by simpa [Piece.marks, hescaped] using hc⟩

end Outputs

end GoTemplate
