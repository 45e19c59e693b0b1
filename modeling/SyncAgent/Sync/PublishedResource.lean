import SyncAgent.Sync.Meta
import SyncAgent.Lib.GoTemplate

/-! The part of a PublishedResource (`sdk/apis/syncagent/v1alpha1`) that the syncer of a resource
reads, the projection of related resources, and the rendering of templates
(`internal/sync/templating`). -/

namespace Sync

open Kube

structure ResourceNaming where
  name : String := ""
  ns : String := ""
deriving DecidableEq

inductive ResourceScope where
  | clusterScoped
  | namespaceScoped
deriving DecidableEq

structure RegularExpression where
  pattern : String := ""
  replacement : String := ""
deriving DecidableEq

structure TemplateExpression where
  template : String
deriving DecidableEq

structure RelatedResourceObjectReference where
  path : String
  regex : Option RegularExpression := none
deriving DecidableEq

structure RelatedResourceSelectorRewrite where
  regex : Option RegularExpression := none
  template : Option TemplateExpression := none
deriving DecidableEq

/-- A label selector with a rewrite.  The selector itself is shared by everything that was created
from one PublishedResource, so this is a pointer to it. -/
structure RelatedResourceObjectSelector where
  labelSelector : Nat
  rewrite : RelatedResourceSelectorRewrite
deriving DecidableEq

structure RelatedResourceObjectSpec where
  selector : Option RelatedResourceObjectSelector := none
  reference : Option RelatedResourceObjectReference := none
  template : Option TemplateExpression := none
deriving DecidableEq

structure RelatedResourceObject where
  object : RelatedResourceObjectSpec
  ns : Option RelatedResourceObjectSpec := none
deriving DecidableEq

structure GroupVersionResource where
  group : String
  version : String
  resource : String
deriving DecidableEq

/-- The fields of a projection; an empty one changes nothing. -/
abbrev RelatedResourceProjection := GroupVersionResource

inductive RelatedResourceCleanupPolicy where
  | orphan
  | onPrimaryDeletion
  | matchOrigin
deriving DecidableEq

structure RelatedResourceSpec where
  identifier : String
  origin : RelatedResourceOrigin
  group : String := ""
  version : String := ""
  resource : String := ""
  kind : String := ""
  cleanup : Bool := false
  cleanupPolicy : Option RelatedResourceCleanupPolicy := none
  projection : Option RelatedResourceProjection := none
  object : RelatedResourceObject
  syncStatus : Bool := false
deriving DecidableEq

namespace RelatedResourceSpec

def effectiveCleanupPolicy (r : RelatedResourceSpec) : RelatedResourceCleanupPolicy :=
  match r.cleanupPolicy with
  | some policy => policy
  | none => if r.cleanup then .onPrimaryDeletion else .orphan

/-- `projection.RelatedResourceGVR`, with the two legacy kinds. -/
def gvr (r : RelatedResourceSpec) : GroupVersionResource :=
  match r.kind with
  | "ConfigMap" => ⟨"", "v1", "configmaps"⟩
  | "Secret" => ⟨"", "v1", "secrets"⟩
  | _ => ⟨r.group, r.version, r.resource⟩

/-- `projection.RelatedResourceProjectedGVR` -/
def projectedGVR (r : RelatedResourceSpec) : GroupVersionResource :=
  match r.projection with
  | none => r.gvr
  | some p =>
    { group := if p.group ≠ "" then p.group else r.gvr.group
      version := if p.version ≠ "" then p.version else r.gvr.version
      resource := if p.resource ≠ "" then p.resource else r.gvr.resource }

end RelatedResourceSpec

structure PublishedResource where
  name : String
  naming : Option ResourceNaming := none
  related : List RelatedResourceSpec := []
deriving DecidableEq

/-! ### Templates -/

/-- SHA-3 with 256 bits, in hexadecimal. -/
structure Sha3 where
  sum : String → String
  length_sum : ∀ s, (sum s).toList.length = 64
  hex_sum : ∀ s, ∀ c ∈ (sum s).toList, c ∈ "0123456789abcdef".toList

/-- `sha3short`, with its optional length. -/
def sha3short (sha : Sha3) (input : String) (lengths : List Int) : Except String String :=
  let cut (length : Int) : Except String String :=
    if length ≤ 0 then .error ("sha3short: invalid length " ++ toString length)
    else .ok (String.ofList ((sha.sum input).toList.take length.toNat))
  match lengths with
  | [] => cut 20
  | [length] => cut length
  | _ => .error ("sha3short: expected at most one length argument, got " ++ toString lengths.length)

/-- The template engine with the functions of `templateFuncMap` that are modelled. -/
def templateEngine (sha : Sha3) (print : Doc → String)
    (other : String → Fields → Except String String) : GoTemplate.Engine where
  func
    | "sha3sum" => some fun s => .ok (sha.sum s)
    | "sha3short" => some fun s => sha3short sha s []
    | _ => none
  print := print
  other := other

/-- `templating.Render` -/
def renderTemplate (engine : GoTemplate.Engine) (tpl : String) (data : Fields) :
    Except Error String :=
  match GoTemplate.render engine tpl data with
  | .error e => .error (.wrapped "failed to evaluate" (.new e))
  | .ok s => .ok (GoTemplate.trimSpace s)

/-- `strings.Contains` -/
def contains (s part : String) : Bool := s.toList.tails.any fun t => part.toList.isPrefixOf t

end Sync
