import Mathlib

/-!
# Sponges and chunked commitments

The interfaces of `mina_poseidon` and `poly_commitment` that the trace builder and the storage
proof call.  A sponge is the `FqSponge` trait on an explicit state: `absorb_g` absorbs curve
points and `challenge` squeezes a scalar (`squeeze(2)`, two 64-bit limbs).  A commitment is a
`PolyComm`, the list of its chunks, one per `SRS`-sized piece of the committed polynomial;
`absorb_commitment` absorbs all of them.
-/

namespace ProofSystems

/-- The `FqSponge` interface, on an explicit sponge state: `absorb_g` and `challenge`. -/
structure FqSponge (S G F : Type) where
  absorbG : S → List G → S
  challenge : S → F × S

/-- `PolyComm<G>`: a commitment, as its chunks. -/
structure PolyComm (G : Type) where
  chunks : List G

variable {S G F : Type}

/-- `absorb_commitment`: `sponge.absorb_g(&commitment.chunks)`. -/
def absorbCommitment (sp : FqSponge S G F) (st : S) (c : PolyComm G) : S :=
  sp.absorbG st c.chunks

/-- `PolyComm::get_first_chunk`: `self.chunks[0]`, a panic without chunks. -/
def PolyComm.getFirstChunk (c : PolyComm G) : Option G := c.chunks.head?

end ProofSystems
