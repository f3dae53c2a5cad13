import ClusterRegistrar.Manifest.Document
import ClusterRegistrar.Proofs.Value.Folding

/-! Manifests that match. A resource is read the same wherever it stands, in its own document or as an
item of a list: what is logged, what is rejected, and the manifest up to the places its values were
read from. -/
namespace ClusterRegistrar

variable {M : Correspondence}

structure SourceSecret.Matches (M : Correspondence) (s t : SourceSecret) : Prop where
  name : s.name.Matches M t.name
  space : s.space.Matches M t.space
  type : s.type.Matches M t.type
  labels : s.labels.Matches M t.labels
  data : s.data.Matches M t.data

structure SourceCluster.Matches (M : Correspondence) (c d : SourceCluster) : Prop where
  name : c.name.Matches M d.name
  space : c.space.Matches M d.space
  labels : c.labels.Matches M d.labels
  annotations : c.annotations.Matches M d.annotations

def SourceSecret.IsCopy (origins : Origin → Origin → Prop) (s t : SourceSecret) : Prop :=
  ∃ M : Correspondence, M.Keeps origins ∧ s.Matches M t

def SourceCluster.IsCopy (origins : Origin → Origin → Prop) (c d : SourceCluster) : Prop :=
  ∃ M : Correspondence, M.Keeps origins ∧ c.Matches M d

inductive Manifest.Matches (M : Correspondence) : Manifest → Manifest → Prop where
  | secret {s t : SourceSecret} (h : s.Matches M t) : Matches M (.secret s) (.secret t)
  | cluster {c d : SourceCluster} (h : c.Matches M d) : Matches M (.cluster c) (.cluster d)

namespace Manifest

theorem startsWith_eq (start : Text) {v w : Value} (h : v.Matches M w) :
    startsWith start v = startsWith start w := by
  rw [startsWith, startsWith, h.text_eq]

/-! ### Headers -/

structure Header.Matches (M : Correspondence) (h k : Header) : Prop where
  fields : h.fields.Matches M k.fields
  metadata : h.metadata.Matches M k.metadata
  name : h.name.Matches M k.name
  space : h.space.Matches M k.space

theorem header_agree (kind : ManifestKind) {doc doc' : Value} (h : doc.Matches M doc') :
    Except.Agree (Header.Matches M) (header kind doc) (header kind doc') := by
  unfold header
  refine h.fields_agree.lift.bind fun fields fields' hfields => ?_
  have hversion := hfields.field "apiVersion"
  have hmetadata := hfields.field "metadata"
  refine .when (by rw [hversion.truthy_eq]) (by rw [h.shown_eq]) ?_
  rw [startsWith_eq _ hversion]
  refine .bind_same _ fun starts => .when Iff.rfl (by rw [h.shown_eq]) ?_
  refine .when (by rw [hmetadata.truthy_eq]) (by rw [h.shown_eq]) ?_
  refine hmetadata.fields_agree.lift.bind fun metadata metadata' hmetadata => ?_
  have hname := hmetadata.field "name"
  refine .when (by rw [hname.truthy_eq]) (by rw [h.shown_eq]) (.ok ⟨hfields, hmetadata, hname, ?_⟩)
  have hspace := hmetadata.field?_rel "namespace"
  generalize metadata.field? "namespace" = left, metadata'.field? "namespace" = right at hspace ⊢
  cases hspace with
  | none => exact .str _
  | some hspace => exact hspace

theorem ofSecretDocument_agree {doc doc' : Value} (h : doc.Matches M doc') :
    Except.Agree (SourceSecret.Matches M) (ofSecretDocument doc) (ofSecretDocument doc') := by
  refine (header_agree .secret h).bind fun k k' hk => .ok ?_
  exact ⟨hk.name, hk.space, hk.fields.field "type", (hk.metadata.field "labels").orElse .empty,
    (hk.fields.field "data").orElse .empty⟩

theorem ofClusterDocument_agree {doc doc' : Value} (h : doc.Matches M doc') :
    Except.Agree (SourceCluster.Matches M) (ofClusterDocument doc) (ofClusterDocument doc') := by
  refine (header_agree .cluster h).bind fun k k' hk => .ok ?_
  exact ⟨hk.name, hk.space, (hk.metadata.field "labels").orElse .empty,
    (hk.metadata.field "annotations").orElse .empty⟩

/-! ### Resources -/

theorem kindOf_eq {kind kind' version version' : Value} (hkind : kind.Matches M kind')
    (hversion : version.Matches M version') : kindOf kind version = kindOf kind' version' := by
  simp only [kindOf, hkind.isText_eq, hversion.isText_eq, startsWith_eq _ hversion]

theorem ofResource_agree {doc doc' : Value} (h : doc.Matches M doc') :
    Run.Agree (Option.Rel (Matches M)) (ofResource doc) (ofResource doc') := by
  unfold ofResource
  refine (Run.Agree.ofFault h.fields_agree).bind fun fields fields' hfields => ?_
  have hkind := hfields.field "kind"
  have hversion := hfields.field "apiVersion"
  refine .when (by rw [hkind.truthy_eq]) (by rw [h.shown_eq]) ?_
  refine .when (by rw [hversion.truthy_eq]) (by rw [h.shown_eq]) ?_
  rw [kindOf_eq hkind hversion]
  refine .bind_same _ fun announced => ?_
  cases announced with
  | none =>
    rw [hversion.shown_eq, hkind.shown_eq]
    exact .bind_same _ fun _ => .pure .none
  | some kind =>
    cases kind with
    | secret =>
      refine (Run.Agree.ofExcept (ofSecretDocument_agree h)).bind fun s t hst => ?_
      exact .pure (.some (.secret hst))
    | cluster =>
      refine (Run.Agree.ofExcept (ofClusterDocument_agree h)).bind fun c d hcd => ?_
      exact .pure (.some (.cluster hcd))

end Manifest
end ClusterRegistrar
