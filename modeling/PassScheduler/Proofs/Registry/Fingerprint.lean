import PassScheduler.Pass.Listing
import PassScheduler.Pipeline.Run
import PassScheduler.Proofs.Json.Compact

/-!
Contract: what a registry's fingerprint stands for.

The canonical text of a registry is the compact form of its descriptors as documents. Since a
document determines its descriptor and the compact form its document, no two different rows of
descriptors have a text in common, whatever their names contain.

Owns:
- that a document determines its descriptor;
- that the canonical text determines the descriptors, in their order.

Does not own: whether two texts have different digests.
-/

namespace PassScheduler

theorem PassKind.text_injective : Function.Injective PassKind.text := by
  intro kind other same
  cases kind <;> cases other <;> first | rfl | exact absurd same (by decide)

theorem Descriptor.document_injective : Function.Injective Descriptor.document := by
  intro descriptor other same
  obtain ⟨name, kind, minLevel, requires, invalidates⟩ := descriptor
  obtain ⟨otherName, otherKind, otherLevel, otherRequires, otherInvalidates⟩ := other
  have strings : Function.Injective Json.Document.string := fun _ _ => Json.Document.string.inj
  simp only [document, Json.Document.object.injEq, List.cons.injEq, Prod.mk.injEq, true_and,
    and_true, Json.Document.string.injEq, Json.Document.number.injEq,
    Json.Document.array.injEq] at same
  obtain ⟨sameName, sameKind, sameLevel, sameRequires, sameInvalidates⟩ := same
  rw [PassKind.text_injective sameKind, UInt32.toNat_inj.1 sameLevel, sameName,
    strings.list_map sameRequires, strings.list_map sameInvalidates]

namespace Registry

variable {Instance Other : Type}

/-- Two registries have the same canonical text iff their descriptors are the same in the same order.
The fingerprint of a registry is the digest of that text, whatever was compiled and at which
level. -/
theorem canonicalJson_eq_iff (registry : Registry Instance) (other : Registry Other) :
    (registry.canonicalJson = other.canonicalJson ↔ registry.descriptors = other.descriptors) ∧
      ∀ source output level,
        (Provenance.compute source output registry level).registryFingerprint =
          Digest.ofText registry.canonicalJson := by
  refine ⟨⟨fun same => ?_, fun same => ?_⟩, fun _ _ _ => rfl⟩
  · have sameDocuments := Json.Document.array.inj (Json.compact_injective same)
    exact Descriptor.document_injective.list_map sameDocuments
  · rw [canonicalJson, canonicalJson, same]

end Registry

end PassScheduler
