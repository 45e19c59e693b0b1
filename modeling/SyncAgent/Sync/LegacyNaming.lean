import Mathlib.Data.List.Infix
import SyncAgent.Sync.Naming

/-! Naming patterns with `$remote…` variables, and the Go templates that replace them according to
the documentation (`docs/content/publish-resources/index.md`).  Both are read as the same tokens, so
the results compare what each variable and its template stand for. -/

namespace Sync

open Kube

/-! ### Variables -/

/-- The variables of a naming pattern. -/
inductive Placeholder where
  | clusterName
  | namespaceHash
  | ns
  | nameHash
  | name
deriving DecidableEq

namespace Placeholder

/-- The variables in the order of the replacer. -/
def all : List Placeholder := [clusterName, namespaceHash, ns, nameHash, name]

def text : Placeholder → String
  | clusterName => "$remoteClusterName"
  | namespaceHash => "$remoteNamespaceHash"
  | ns => "$remoteNamespace"
  | nameHash => "$remoteNameHash"
  | name => "$remoteName"

/-- The inside of the template that replaces a variable. -/
def inside : Placeholder → String
  | clusterName => " .ClusterName "
  | namespaceHash => " .Object.metadata.namespace | shortHash "
  | ns => " .Object.metadata.namespace "
  | nameHash => " .Object.metadata.name | shortHash "
  | name => " .Object.metadata.name "

/-- The documented replacement of a variable. -/
def template (p : Placeholder) : String := "\x7b\x7b" ++ p.inside ++ "\x7d\x7d"

def node : Placeholder → GoTemplate.Node
  | clusterName => .action ["ClusterName"] []
  | namespaceHash => .action ["Object", "metadata", "namespace"] ["shortHash"]
  | ns => .action ["Object", "metadata", "namespace"] []
  | nameHash => .action ["Object", "metadata", "name"] ["shortHash"]
  | name => .action ["Object", "metadata", "name"] []

theorem mem_all (p : Placeholder) : p ∈ all := by
  cases p <;> decide

theorem parse_inside (p : Placeholder) : '}' ∉ p.inside.toList ∧
    GoTemplate.parseAction p.inside.toList = some p.node := by
  cases p <;> decide +kernel

theorem source_template (p : Placeholder) :
    p.template.toList = (GoTemplate.Segment.action p.inside.toList p.node).source := by
  simp [template, GoTemplate.Segment.source]

end Placeholder

/-- The pattern with every variable replaced by its template. -/
def migrate (pattern : String) : String :=
  String.ofList (replaceAll (Placeholder.all.map fun p => (p.text.toList, p.template.toList))
    pattern.toList.length pattern.toList)

/-! ### Tokens -/

inductive Token where
  | char (c : Char)
  | placeholder (p : Placeholder)
deriving DecidableEq

namespace Token

def render (value : Placeholder → List Char) : Token → List Char
  | .char c => [c]
  | .placeholder p => value p

end Token

theorem Placeholder.prefix_of_find {s : List Char} {p : Placeholder}
    (h : (all.find? fun p => p.text.toList.isPrefixOf s) = some p) : p.text.toList <+: s :=
  List.isPrefixOf_iff_prefix.mp (by simpa using List.find?_some h)

/-- What the replacer sees in a pattern. -/
def tokens : Nat → List Char → List Token
  | 0, s => s.map .char
  | _, [] => []
  | fuel + 1, c :: rest =>
    match Placeholder.all.find? fun p => p.text.toList.isPrefixOf (c :: rest) with
    | some p => .placeholder p :: tokens fuel ((c :: rest).drop p.text.toList.length)
    | none => .char c :: tokens fuel rest

theorem replaceAll_eq_flatMap (value : Placeholder → List Char) (fuel : Nat) (s : List Char) :
    replaceAll (Placeholder.all.map fun p => (p.text.toList, value p)) fuel s =
      (tokens fuel s).flatMap (Token.render value) := by
  induction fuel generalizing s with
  | zero => simp [replaceAll, tokens, List.flatMap_map, Token.render]
  | succ fuel ih =>
    cases s with
    | nil => rfl
    | cons c rest =>
      have hfind : (Placeholder.all.map fun p => (p.text.toList, value p)).find?
          (fun q => q.1.isPrefixOf (c :: rest)) =
          (Placeholder.all.find? fun p => p.text.toList.isPrefixOf (c :: rest)).map
            fun p => (p.text.toList, value p) := List.find?_map
      rw [replaceAll, tokens, hfind]
      cases Placeholder.all.find? fun p => p.text.toList.isPrefixOf (c :: rest) with
      | none => simp [ih, Token.render]
      | some p => simp [ih, Token.render]

/-! ### Patterns -/

/-- A character of the literal text of a pattern. -/
def plainChar (c : Char) : Bool := c ≠ '{' && c ≠ '}' && c ≠ '$' && !GoTemplate.isSpace c

/-- A part of a pattern. -/
inductive Piece where
  | literal (s : List Char) (plain : s.all plainChar = true)
  | placeholder (p : Placeholder)

def Piece.text : Piece → List Char
  | .literal s _ => s
  | .placeholder p => p.text.toList

/-- Every character is plain or the start of a variable. -/
def Patterned (s : List Char) : Prop :=
  ∀ c rest, c :: rest <:+ s → plainChar c = true ∨ ∃ p : Placeholder, p.text.toList <+: c :: rest

theorem Patterned.suffix {s t : List Char} (h : Patterned s) (ht : t <:+ s) : Patterned t :=
  fun c rest hsuffix => h c rest (hsuffix.trans ht)

theorem Patterned.cons {c : Char} {s : List Char}
    (hc : plainChar c = true ∨ ∃ p : Placeholder, p.text.toList <+: c :: s) (h : Patterned s) :
    Patterned (c :: s) := by
  intro d rest hsuffix
  rcases List.suffix_cons_iff.mp hsuffix with heq | hrest
  · cases heq
    exact hc
  · exact h d rest hrest

theorem Patterned.append_plain {s t : List Char} (hs : s.all plainChar = true) (ht : Patterned t) :
    Patterned (s ++ t) := by
  induction s with
  | nil => exact ht
  | cons c s ih =>
    rw [List.all_cons, Bool.and_eq_true] at hs
    exact (ih hs.2).cons (.inl hs.1)

theorem Placeholder.text_eq (p : Placeholder) :
    ∃ s, p.text.toList = '$' :: s ∧ s.all plainChar = true := by
  cases p <;> exact ⟨_, rfl, by decide⟩

theorem patterned_pieces (pieces : List Piece) : Patterned (pieces.flatMap Piece.text) := by
  induction pieces with
  | nil =>
    intro c rest h
    cases List.suffix_nil.mp h
  | cons q rest ih =>
    rw [List.flatMap_cons]
    cases q with
    | literal s plain => exact ih.append_plain plain
    | placeholder p =>
      obtain ⟨s, htext, hs⟩ := p.text_eq
      have hstart : p.text.toList <+: '$' :: (s ++ rest.flatMap Piece.text) := by
        rw [htext]
        exact List.prefix_append _ _
      rw [Piece.text, htext]
      exact (ih.append_plain hs).cons (.inr ⟨p, hstart⟩)

theorem plain_of_mem_tokens {fuel : Nat} {s : List Char} (hfuel : s.length ≤ fuel)
    (h : Patterned s) {c : Char} (hc : Token.char c ∈ tokens fuel s) : plainChar c = true := by
  induction fuel generalizing s with
  | zero =>
    rw [List.length_eq_zero_iff.mp (Nat.le_zero.mp hfuel)] at hc
    cases hc
  | succ fuel ih =>
    cases s with
    | nil => cases hc
    | cons d rest =>
      rw [tokens] at hc
      split at hc
      · next p hfind =>
        obtain ⟨t, htext, -⟩ := p.text_eq
        rw [List.mem_cons] at hc
        rcases hc with hc | hc
        · cases hc
        · refine ih ?_ (h.suffix (List.drop_suffix _ _)) hc
          simp only [htext, List.length_cons, List.drop_succ_cons, List.length_drop] at hfuel ⊢
          omega
      · next hnone =>
        rw [List.mem_cons] at hc
        rcases hc with hc | hc
        · cases hc
          refine (h c rest List.suffix_rfl).resolve_right ?_
          rintro ⟨p, hprefix⟩
          have hnot := List.find?_eq_none.mp hnone p p.mem_all
          exact hnot (List.isPrefixOf_iff_prefix.mpr hprefix)
        · exact ih (Nat.le_of_succ_le_succ hfuel) (h.suffix (List.suffix_cons _ _)) hc

theorem suffix_of_append_plain {w u t : List Char} (hw : w.all plainChar = true)
    (h : '$' :: t <:+ w ++ u) : '$' :: t <:+ u := by
  induction w with
  | nil => exact h
  | cons c w ih =>
    rw [List.all_cons, Bool.and_eq_true] at hw
    rcases List.suffix_cons_iff.mp h with heq | hrest
    · cases heq
      exact absurd hw.1 (by decide)
    · exact ih hw.2 hrest

theorem mem_tokens_of_suffix {fuel : Nat} {s t : List Char} (hfuel : s.length ≤ fuel)
    (ht : '$' :: t <:+ s) {p : Placeholder}
    (hfind : (Placeholder.all.find? fun p => p.text.toList.isPrefixOf ('$' :: t)) = some p) :
    Token.placeholder p ∈ tokens fuel s := by
  induction fuel generalizing s with
  | zero =>
    rw [List.length_eq_zero_iff.mp (Nat.le_zero.mp hfuel)] at ht
    cases List.suffix_nil.mp ht
  | succ fuel ih =>
    cases s with
    | nil => cases List.suffix_nil.mp ht
    | cons d rest =>
      rw [tokens]
      rcases List.suffix_cons_iff.mp ht with heq | hrest
      · cases heq
        rw [hfind]
        exact .head _
      · have hlen : rest.length ≤ fuel := Nat.le_of_succ_le_succ hfuel
        split
        · next q hq =>
          obtain ⟨w, htext, hw⟩ := q.text_eq
          have hprefix := Placeholder.prefix_of_find hq
          rw [htext] at hprefix ⊢
          obtain ⟨u, hu⟩ := hprefix
          rw [List.cons_append] at hu
          obtain ⟨rfl, rfl⟩ := List.cons.inj hu
          rw [← List.cons_append, List.drop_left]
          rw [List.length_append] at hlen
          exact .tail _ (ih (by omega) (suffix_of_append_plain hw hrest))
        · exact .tail _ (ih hlen hrest)

theorem infix_of_mem_tokens {fuel : Nat} {s : List Char} {p : Placeholder}
    (h : Token.placeholder p ∈ tokens fuel s) : p.text.toList <:+: s := by
  induction fuel generalizing s with
  | zero => simp [tokens] at h
  | succ fuel ih =>
    cases s with
    | nil => cases h
    | cons c rest =>
      rw [tokens] at h
      split at h
      · next q hq =>
        rcases List.mem_cons.mp h with heq | h
        · cases heq
          exact (Placeholder.prefix_of_find hq).isInfix
        · exact (ih h).trans (List.drop_suffix _ _).isInfix
      · rcases List.mem_cons.mp h with heq | h
        · cases heq
        · exact (ih h).trans (List.suffix_cons _ _).isInfix

/-- The variable is read from the namespace of the object. -/
def Placeholder.readsNamespace : Placeholder → Bool
  | namespaceHash | ns => true
  | _ => false

/-- The two variables for the namespace are the ones that start with `$remoteNamespace`. -/
theorem contains_namespace_iff (s : List Char) :
    contains (String.ofList s) "$remoteNamespace" = true ↔
      ∃ p : Placeholder, p.readsNamespace = true ∧ Token.placeholder p ∈ tokens s.length s := by
  simp only [contains, String.toList_ofList, List.any_eq_true, List.mem_tails]
  constructor
  · rintro ⟨t, ht, hprefix⟩
    obtain ⟨u, rfl⟩ := List.isPrefixOf_iff_prefix.mp hprefix
    have htoken : ∀ p, (Placeholder.all.find? fun p =>
        p.text.toList.isPrefixOf ("$remoteNamespace".toList ++ u)) = some p →
        Token.placeholder p ∈ tokens s.length s := fun p => mem_tokens_of_suffix le_rfl ht
    have hcluster :
        Placeholder.clusterName.text.toList.isPrefixOf ("$remoteNamespace".toList ++ u) = false :=
          rfl
    have hns : Placeholder.ns.text.toList.isPrefixOf ("$remoteNamespace".toList ++ u) = true := rfl
    cases hhash :
        Placeholder.namespaceHash.text.toList.isPrefixOf ("$remoteNamespace".toList ++ u) with
    | true =>
      refine ⟨.namespaceHash, rfl, htoken _ ?_⟩
      simp only [Placeholder.all, List.find?_cons, hcluster, hhash]
    | false =>
      refine ⟨.ns, rfl, htoken _ ?_⟩
      simp only [Placeholder.all, List.find?_cons, hcluster, hhash, hns]
  · rintro ⟨p, hp, hmem⟩
    have hstart : "$remoteNamespace".toList <+: p.text.toList := by
      cases p with
      | namespaceHash => exact List.isPrefixOf_iff_prefix.mp (by decide)
      | ns => exact List.prefix_rfl
      | _ => cases hp
    obtain ⟨a, b, hs⟩ := infix_of_mem_tokens hmem
    refine ⟨p.text.toList ++ b, ⟨a, by rw [← hs, List.append_assoc]⟩, ?_⟩
    exact List.isPrefixOf_iff_prefix.mpr (hstart.trans (List.prefix_append _ _))

/-! ### What the variables and their templates stand for -/

/-- `crypto.Hash` of the values in a template, where `none` is nil: SHA-1 of a string or of the JSON
form of another value, in hexadecimal digits.  The hash of nil is that of `null` and a line break,
which starts with d910b028; that of the empty string starts with da39a3ee. -/
structure ValueHash (hash : Hash) where
  value : Option Doc → String
  str : ∀ s, value (some (.str s)) = hash (.text s)
  length_value : ∀ v, (value v).toList.length = 40
  hex_value : ∀ v, ∀ c ∈ (value v).toList, c ∈ "0123456789abcdef".toList
  nil_ne : (value none).toList.take 20 ≠ (value (some (.str ""))).toList.take 20

namespace ValueHash

variable {hash : Hash} (H : ValueHash hash)

/-- `crypto.ShortHash` -/
def short (v : Option Doc) : String := String.ofList ((H.value v).toList.take 20)

theorem short_str (s : String) : H.short (some (.str s)) = shortHash hash (.text s) := by
  rw [short, H.str]
  rfl

theorem length_short (v : Option Doc) : (H.short v).toList.length = 20 := by
  simp [short, H.length_value]

theorem isSpace_short {v : Option Doc} {c : Char} (h : c ∈ (H.short v).toList) :
    GoTemplate.isSpace c = false := by
  have hmem : c ∈ (H.value v).toList := by
    simp only [short, String.toList_ofList] at h
    exact List.mem_of_mem_take h
  have hhex : ("0123456789abcdef".toList.all fun c => !GoTemplate.isSpace c) = true := by decide
  simpa using List.all_eq_true.mp hhex c (H.hex_value v c hmem)

theorem short_nil_ne : H.short none ≠ shortHash hash (.text "") := by
  rw [← H.short_str]
  exact fun h => H.nil_ne (String.ofList_injective h)

/-- The template functions that take any value. -/
def funcs : String → Option (Option Doc → String)
  | "shortHash" => some H.short
  | _ => none

theorem funcs_shortHash : H.funcs "shortHash" = some H.short := rfl

/-- The template engine of the agent, with the function for the old names. -/
def engine (sha : Sha3) (print : Doc → String) (other : String → Fields → Except String String) :
    GoTemplate.Engine :=
  (templateEngine sha print other).withAny H.funcs

end ValueHash

/-- A field of the metadata in a template: there is no value if it is empty. -/
def metaValue (s : String) : Option Doc := if s = "" then none else some (.str s)

section Values

variable {hash : Hash} (H : ValueHash hash) (o : Unstructured) (cluster : String)

/-- What the replacer puts in the place of a variable. -/
def Placeholder.value (hash : Hash) (o : Unstructured) (cluster : String) : Placeholder → String
  | clusterName => cluster
  | namespaceHash => shortHash hash (.text o.metadata.ns)
  | ns => o.metadata.ns
  | nameHash => shortHash hash (.text o.metadata.name)
  | name => o.metadata.name

/-- What the template of a variable prints. -/
def Placeholder.rendered : Placeholder → String
  | clusterName => cluster
  | namespaceHash => H.short (metaValue o.metadata.ns)
  | ns => if o.metadata.ns = "" then "<no value>" else o.metadata.ns
  | nameHash => H.short (metaValue o.metadata.name)
  | name => if o.metadata.name = "" then "<no value>" else o.metadata.name

variable (sha : Sha3) (print : Doc → String) (other : String → Fields → Except String String)

theorem evalChain_ns (path : String) :
    GoTemplate.evalChain (newLocalObjectNamingContext o cluster path)
      ["Object", "metadata", "namespace"] = .ok (metaValue o.metadata.ns) := by
  rw [evalChain_object, walk_metadata (get?_metadata_ns _)]
  rfl

theorem evalChain_name (path : String) :
    GoTemplate.evalChain (newLocalObjectNamingContext o cluster path)
      ["Object", "metadata", "name"] = .ok (metaValue o.metadata.name) := by
  rw [evalChain_object, walk_metadata (get?_metadata_name _)]
  rfl

theorem evalChain_cluster (path : String) :
    GoTemplate.evalChain (newLocalObjectNamingContext o cluster path) ["ClusterName"] =
      .ok (some (.str cluster)) := by
  simp [GoTemplate.evalChain, newLocalObjectNamingContext, Assoc.get?, GoTemplate.walk]

theorem printValue_meta (s : String) :
    GoTemplate.printValue (templateEngine sha print other) (metaValue s) =
      if s = "" then "<no value>" else s := by
  unfold metaValue
  split <;> rfl

theorem evalNodeAny_placeholder (path : String) (p : Placeholder) :
    GoTemplate.evalNodeAny (templateEngine sha print other) H.funcs
      (newLocalObjectNamingContext o cluster path) p.node =
        some (.ok (p.rendered H o cluster)) := by
  cases p with
  | clusterName =>
    rw [Placeholder.node, GoTemplate.evalNodeAny_nil, evalChain_cluster]
    rfl
  | namespaceHash =>
    rw [Placeholder.node, GoTemplate.evalNodeAny_single _ H.funcs_shortHash, evalChain_ns]
    rfl
  | ns =>
    rw [Placeholder.node, GoTemplate.evalNodeAny_nil, evalChain_ns, Except.map, printValue_meta]
    rfl
  | nameHash =>
    rw [Placeholder.node, GoTemplate.evalNodeAny_single _ H.funcs_shortHash, evalChain_name]
    rfl
  | name =>
    rw [Placeholder.node, GoTemplate.evalNodeAny_nil, evalChain_name, Except.map, printValue_meta]
    rfl

theorem nodeOutput_placeholder (path : String) (p : Placeholder) :
    GoTemplate.nodeOutput (templateEngine sha print other) H.funcs
      (newLocalObjectNamingContext o cluster path) p.node = p.rendered H o cluster := by
  rw [GoTemplate.nodeOutput, evalNodeAny_placeholder]
  rfl

theorem evalNode_placeholder (path : String) (p : Placeholder) :
    GoTemplate.evalNode (templateEngine sha print other)
      (newLocalObjectNamingContext o cluster path) p.node = none ∨
    GoTemplate.evalNode (templateEngine sha print other)
      (newLocalObjectNamingContext o cluster path) p.node =
      some (.ok (p.rendered H o cluster)) := by
  have hhash : ["shortHash"].mapM (templateEngine sha print other).func = none := by
    simp [templateEngine]
  cases p with
  | clusterName =>
    simp [GoTemplate.evalNode, Placeholder.node, evalChain_cluster, Placeholder.rendered,
      GoTemplate.applyFuncs, Except.map, GoTemplate.printValue]
  | namespaceHash => simp [GoTemplate.evalNode, Placeholder.node, hhash]
  | ns =>
    simp [GoTemplate.evalNode, Placeholder.node, evalChain_ns, Placeholder.rendered,
      GoTemplate.applyFuncs, Except.map, printValue_meta]
  | nameHash => simp [GoTemplate.evalNode, Placeholder.node, hhash]
  | name =>
    simp [GoTemplate.evalNode, Placeholder.node, evalChain_name, Placeholder.rendered,
      GoTemplate.applyFuncs, Except.map, printValue_meta]

end Values

/-! ### Both readings of a pattern -/

theorem tokens_text (fuel : Nat) (s : List Char) :
    (tokens fuel s).flatMap (Token.render fun p => p.text.toList) = s := by
  induction fuel generalizing s with
  | zero => simp [tokens, List.flatMap_map, Token.render]
  | succ fuel ih =>
    cases s with
    | nil => rfl
    | cons c rest =>
      rw [tokens]
      split
      · next p hfind =>
        rw [List.flatMap_cons, ih, Token.render]
        exact List.prefix_iff_eq_append.mp (Placeholder.prefix_of_find hfind)
      · simp [ih, Token.render]

def Token.segment : Token → GoTemplate.Segment
  | .char c => .char c
  | .placeholder p => .action p.inside.toList p.node

theorem Token.source_segment (t : Token) :
    t.segment.source = t.render fun p => p.template.toList := by
  cases t with
  | char c => rfl
  | placeholder p => exact p.source_template.symm

section Readings

variable {s : List Char} (hs : Patterned s)

theorem toList_migrate : (migrate (String.ofList s)).toList =
    ((tokens s.length s).map Token.segment).flatMap GoTemplate.Segment.source := by
  simp only [migrate, String.toList_ofList, replaceAll_eq_flatMap, List.flatMap_map,
    Token.source_segment]

theorem migrate_eq_self (h : ∀ p, Token.placeholder p ∉ tokens s.length s) :
    migrate (String.ofList s) = String.ofList s := by
  have hchars : ∀ t ∈ tokens s.length s, t.render (fun p => p.template.toList) =
      t.render fun p => p.text.toList := by
    intro t ht
    cases t with
    | char c => rfl
    | placeholder p => exact absurd ht (h p)
  simp only [migrate, String.toList_ofList, replaceAll_eq_flatMap]
  rw [List.flatMap_congr hchars, tokens_text]

theorem contains_migrate {p : Placeholder} (h : Token.placeholder p ∈ tokens s.length s) :
    contains (migrate (String.ofList s)) "\x7b\x7b" = true := by
  obtain ⟨before, after, hsplit⟩ := List.append_of_mem h
  simp only [contains, toList_migrate, hsplit, List.any_eq_true, List.mem_tails]
  refine ⟨(Token.placeholder p).segment.source ++
    (after.map Token.segment).flatMap GoTemplate.Segment.source,
    ⟨(before.map Token.segment).flatMap GoTemplate.Segment.source, by simp⟩, rfl⟩

include hs

theorem not_contains_pattern : contains (String.ofList s) "\x7b\x7b" = false := by
  rw [Bool.eq_false_iff]
  simp only [contains, String.toList_ofList, ne_eq, List.any_eq_true, List.mem_tails]
  rintro ⟨t, ht, hprefix⟩
  obtain ⟨u, rfl⟩ := List.isPrefixOf_iff_prefix.mp hprefix
  rcases hs _ _ ht with hplain | ⟨p, hp⟩
  · exact absurd hplain (by decide)
  · obtain ⟨w, htext, -⟩ := p.text_eq
    rw [htext] at hp
    exact absurd (List.cons_prefix_cons.mp hp).1 (by decide)

theorem parse_migrate : GoTemplate.parse (migrate (String.ofList s)) =
    some (GoTemplate.segmentNodes [] ((tokens s.length s).map Token.segment)) := by
  rw [GoTemplate.parse, toList_migrate]
  refine GoTemplate.scan_segments (fun g hg => ?_) []
  obtain ⟨t, ht, rfl⟩ := List.mem_map.mp hg
  cases t with
  | char c =>
    rintro rfl
    exact absurd (plain_of_mem_tokens le_rfl hs ht) (by decide)
  | placeholder p => exact p.parse_inside

theorem identifier_pattern (hash : Hash) (engine : GoTemplate.Engine) (o : Unstructured)
    (cluster path : String) :
    generateLocalObjectIdentifier hash engine (String.ofList s) o cluster path =
      .ok (String.ofList ((tokens s.length s).flatMap
        (Token.render fun p => (p.value hash o cluster).toList))) := by
  rw [generateLocalObjectIdentifier, if_neg (by simp [not_contains_pattern hs]),
    ← replaceAll_eq_flatMap, String.toList_ofList]
  rfl

variable {hash : Hash} (H : ValueHash hash) (sha : Sha3) (print : Doc → String)
  (other : String → Fields → Except String String) (o : Unstructured) (cluster path : String)

theorem render_migrate :
    GoTemplate.render (H.engine sha print other) (migrate (String.ofList s))
      (newLocalObjectNamingContext o cluster path) =
      .ok (String.ofList ((tokens s.length s).flatMap
        (Token.render fun p => (p.rendered H o cluster).toList))) := by
  have hnodes : ∀ n ∈ GoTemplate.segmentNodes [] ((tokens s.length s).map Token.segment),
      (∃ t, n = .text t) ∨ ∃ p : Placeholder, n = p.node := by
    intro n hn
    refine (GoTemplate.mem_segmentNodes hn).imp_right ?_
    rintro ⟨inside, hmem⟩
    obtain ⟨t, -, ht⟩ := List.mem_map.mp hmem
    cases t with
    | char c => cases ht
    | placeholder p =>
      cases ht
      exact ⟨p, rfl⟩
  have hrender : GoTemplate.render (H.engine sha print other) (migrate (String.ofList s))
      (newLocalObjectNamingContext o cluster path) = .ok (String.ofList
        ((GoTemplate.segmentNodes [] ((tokens s.length s).map Token.segment)).flatMap fun n =>
          (GoTemplate.nodeOutput (templateEngine sha print other) H.funcs
            (newLocalObjectNamingContext o cluster path) n).toList)) := by
    refine GoTemplate.render_withAny (parse_migrate hs) (fun n hn => ?_) fun n hn => ?_
    · obtain ⟨t, rfl⟩ | ⟨p, rfl⟩ := hnodes n hn
      · rfl
      · rw [nodeOutput_placeholder, evalNodeAny_placeholder]
    · obtain ⟨t, rfl⟩ | ⟨p, rfl⟩ := hnodes n hn
      · exact .inr rfl
      · rw [nodeOutput_placeholder]
        exact evalNode_placeholder H o cluster sha print other path p
  rw [hrender, GoTemplate.output_segmentNodes fun _ => rfl, List.reverse_nil, List.nil_append,
    List.flatMap_map]
  refine congrArg (fun l => Except.ok (String.ofList l)) (List.flatMap_congr fun t _ => ?_)
  cases t with
  | char c => rfl
  | placeholder p =>
    simp only [Token.segment, GoTemplate.Segment.output, nodeOutput_placeholder, Token.render]

end Readings

/-! ### When they agree -/

section Agreement

variable {hash : Hash} (H : ValueHash hash) {o : Unstructured} {cluster : String}

theorem metaValue_of_ne {s : String} (h : s ≠ "") : metaValue s = some (.str s) := if_neg h

theorem Placeholder.value_eq_iff (hname : o.metadata.name ≠ "") (p : Placeholder) :
    p.value hash o cluster = p.rendered H o cluster ↔
      (o.metadata.ns ≠ "" ∨ p.readsNamespace = false) := by
  cases p with
  | clusterName => simp [value, rendered, readsNamespace]
  | namespaceHash =>
    by_cases hns : o.metadata.ns = ""
    · simp only [value, rendered, hns, metaValue, if_true, readsNamespace, ne_eq, not_true_eq_false,
        Bool.true_eq_false, or_self, iff_false]
      exact H.short_nil_ne.symm
    · simp [value, rendered, metaValue_of_ne hns, H.short_str, hns]
  | ns =>
    by_cases hns : o.metadata.ns = ""
    · simp [value, rendered, hns, readsNamespace]
    · simp [value, rendered, hns]
  | nameHash =>
    simp [value, rendered, metaValue_of_ne hname, H.short_str, readsNamespace]
  | name => simp [value, rendered, hname, readsNamespace]

theorem Placeholder.length_value_le (hname : o.metadata.name ≠ "") (p : Placeholder) :
    (p.value hash o cluster).toList.length ≤ (p.rendered H o cluster).toList.length := by
  by_cases h : o.metadata.ns ≠ "" ∨ p.readsNamespace = false
  · rw [(p.value_eq_iff H hname).mpr h]
  · rw [not_or, not_not] at h
    cases p with
    | namespaceHash => rw [value, rendered, ← H.short_str, H.length_short, H.length_short]
    | ns => simp [value, h.1]
    | _ => exact absurd rfl h.2

theorem Placeholder.rendered_tight (hcluster : GoTemplate.Tight cluster.toList)
    (hns : GoTemplate.Tight o.metadata.ns.toList) (hname : GoTemplate.Tight o.metadata.name.toList)
    (p : Placeholder) : GoTemplate.Tight (p.rendered H o cluster).toList := by
  have hprint : ∀ s : String, GoTemplate.Tight s.toList →
      GoTemplate.Tight (if s = "" then "<no value>" else s).toList := by
    intro s hs
    split
    · exact .of_ends rfl rfl
    · exact hs
  cases p with
  | clusterName => exact hcluster
  | ns => exact hprint _ hns
  | name => exact hprint _ hname
  | namespaceHash => exact .of_forall fun c hc => H.isSpace_short hc
  | nameHash => exact .of_forall fun c hc => H.isSpace_short hc

variable (sha : Sha3) (print : Doc → String) (other : String → Fields → Except String String)
  (path : String)

theorem identifier_migrate {s : List Char} (hs : Patterned s)
    (hcluster : GoTemplate.Tight cluster.toList) (hns : GoTemplate.Tight o.metadata.ns.toList)
    (hname : GoTemplate.Tight o.metadata.name.toList) {p : Placeholder}
    (hp : Token.placeholder p ∈ tokens s.length s) :
    generateLocalObjectIdentifier hash (H.engine sha print other) (migrate (String.ofList s)) o
        cluster path =
      .ok (String.ofList ((tokens s.length s).flatMap
        (Token.render fun p => (p.rendered H o cluster).toList))) := by
  have htight : GoTemplate.Tight ((tokens s.length s).flatMap
      (Token.render fun p => (p.rendered H o cluster).toList)) := by
    refine .flatMap fun t ht => ?_
    cases t with
    | char c =>
      have hplain := plain_of_mem_tokens le_rfl hs ht
      simp only [plainChar, Bool.and_eq_true, Bool.not_eq_true'] at hplain
      exact .of_forall fun d hd => by rw [List.mem_singleton.mp hd, hplain.2]
    | placeholder q => exact q.rendered_tight H hcluster hns hname
  rw [generateLocalObjectIdentifier, if_pos (contains_migrate hp),
    renderTemplate, render_migrate hs]
  simp only [htight.trimSpace_ofList]

/-- A pattern and the template that replaces it name an object alike if and only if the object has a
namespace or the pattern does not ask for one. -/
theorem migrate_agrees_iff (pieces : List Piece) (hcluster : GoTemplate.Tight cluster.toList)
    (hns : GoTemplate.Tight o.metadata.ns.toList) (hname : GoTemplate.Tight o.metadata.name.toList)
    (hne : o.metadata.name ≠ "") :
    generateLocalObjectIdentifier hash (H.engine sha print other)
        (String.ofList (pieces.flatMap Piece.text)) o cluster path =
      generateLocalObjectIdentifier hash (H.engine sha print other)
        (migrate (String.ofList (pieces.flatMap Piece.text))) o cluster path ↔
      (o.metadata.ns ≠ "" ∨
        contains (String.ofList (pieces.flatMap Piece.text)) "$remoteNamespace" = false) := by
  have hs := patterned_pieces pieces
  generalize pieces.flatMap Piece.text = s at hs
  rw [← Bool.not_eq_true, contains_namespace_iff]
  by_cases hvar : ∃ p, Token.placeholder p ∈ tokens s.length s
  · obtain ⟨p, hp⟩ := hvar
    rw [identifier_pattern hs, identifier_migrate H sha print other path hs hcluster hns hname hp,
      Except.ok.injEq, String.ofList_inj]
    constructor
    · intro h
      -- the parts are equal, so those for the namespace are
      have hparts := GoTemplate.eq_of_flatMap_eq (fun t _ => by
        cases t with
        | char c => exact le_rfl
        | placeholder q => exact q.length_value_le H hne) h
      refine or_iff_not_imp_right.mpr fun hreads => ?_
      obtain ⟨q, hq, hmem⟩ := not_not.mp hreads
      have hvalue := (q.value_eq_iff H hne).mp (String.toList_inj.mp (hparts _ hmem))
      exact hvalue.resolve_right (by simp [hq])
    · intro h
      refine List.flatMap_congr fun t ht => ?_
      cases t with
      | char c => rfl
      | placeholder q =>
        have hq : o.metadata.ns ≠ "" ∨ q.readsNamespace = false :=
          h.imp_right fun hno => Bool.eq_false_iff.mpr fun hreads => hno ⟨q, hreads, ht⟩
        exact congrArg String.toList ((q.value_eq_iff H hne).mpr hq)
  · rw [migrate_eq_self (not_exists.mp hvar)]
    exact iff_of_true rfl (.inr fun ⟨p, _, hp⟩ => hvar ⟨p, hp⟩)

/-- Forty digits: one for each character of a text, and then a fill character. -/
def sampleDigits (text : String) (fill : Char) : String :=
  String.ofList ((text.toList.map (fun c => Nat.digitChar (c.toNat % 16)) ++
    List.replicate 40 fill).take 40)

theorem length_sampleDigits (text : String) (fill : Char) :
    (sampleDigits text fill).toList.length = 40 := by
  simp [sampleDigits]

theorem hex_sampleDigits (text : String) {fill : Char} (hfill : fill ∈ "0123456789abcdef".toList) :
    ∀ c ∈ (sampleDigits text fill).toList, c ∈ "0123456789abcdef".toList := by
  have hdigit : ∀ n : Fin 16, Nat.digitChar n ∈ "0123456789abcdef".toList := by decide
  intro c hc
  rw [sampleDigits, String.toList_ofList] at hc
  rcases List.mem_append.mp (List.mem_of_mem_take hc) with htext | hpad
  · obtain ⟨x, -, rfl⟩ := List.mem_map.mp htext
    exact hdigit ⟨x.toNat % 16, Nat.mod_lt _ (by decide)⟩
  · exact (List.mem_replicate.mp hpad).2 ▸ hfill

def sampleHash : Hash
  | .text s => sampleDigits s '0'
  | _ => sampleDigits "" '2'

/-- A hash that tells nil and texts apart by their first digits. -/
def ValueHash.sample : ValueHash sampleHash where
  value
    | none => sampleDigits "" '1'
    | some (.str s) => sampleDigits s '0'
    | some _ => sampleDigits "" '2'
  str _ := rfl
  length_value v := by split <;> exact length_sampleDigits _ _
  hex_value v := by split <;> exact hex_sampleDigits _ (by decide)
  nil_ne := by decide

def sampleEngine : GoTemplate.Engine :=
  ValueHash.sample.engine .twoValued (fun _ => "") fun _ _ => .error ""

/-- `$remoteNamespaceHash-$remoteNameHash` -/
def hashedPieces : List Piece :=
  [.placeholder .namespaceHash, .literal ['-'] rfl, .placeholder .nameHash]

/-- The old names of a namespaced object. -/
theorem migrate_agrees_namespaced :
    generateLocalObjectIdentifier sampleHash sampleEngine
        (String.ofList (hashedPieces.flatMap Piece.text)) (crontab "team-a") "c1" "" =
      generateLocalObjectIdentifier sampleHash sampleEngine
        (migrate (String.ofList (hashedPieces.flatMap Piece.text))) (crontab "team-a") "c1" "" :=
  (migrate_agrees_iff ValueHash.sample .twoValued (fun _ => "")
    (fun _ _ => .error "") "" hashedPieces
    (.of_ends rfl rfl) (.of_ends rfl rfl) (.of_ends rfl rfl) (by decide)).mpr
    (.inl (by decide))

/-- The names of a cluster-scoped object: the variables take the empty string and its hash, the
templates print `<no value>` and the hash of nil. -/
theorem migrate_differs_clusterScoped :
    generateLocalObjectIdentifier sampleHash sampleEngine
      "$remoteNamespace-$remoteName" (crontab "")
      "c1" "" = .ok "-daily" ∧
    generateLocalObjectIdentifier sampleHash sampleEngine
      (migrate "$remoteNamespace-$remoteName") (crontab "") "c1" "" = .ok "<no value>-daily" ∧
    generateLocalObjectIdentifier sampleHash sampleEngine
      "$remoteNamespaceHash" (crontab "") "c1" "" = .ok "00000000000000000000" ∧
    generateLocalObjectIdentifier sampleHash sampleEngine
      (migrate "$remoteNamespaceHash") (crontab "") "c1" "" = .ok "11111111111111111111" := by
  refine ⟨?_, ?_, ?_, ?_⟩
  all_goals rfl

end Agreement

end Sync
