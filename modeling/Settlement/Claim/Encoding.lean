import Settlement.Hash.Sha256
import Settlement.Policy

namespace Settlement

/-- A claim of `amount` for `period`, bound to one deployment by its domain. -/
structure Claim where
  domain : Domain
  claimant : Address
  period : PeriodId
  amount : Amount
deriving DecidableEq

namespace Claim

/-- What both encodings of a claim have in common. All its parts have a fixed width, so that no two
different claims are written alike. -/
def core (c : Claim) : Bytes :=
  littleEndian 8 c.domain.chainId.val ++ c.domain.contract.bytes ++ c.claimant.bytes ++
    littleEndian 8 c.period.number.val ++ littleEndian 16 c.amount.val

/-- The version of the deployment, which comes last in both encodings. -/
def version (c : Claim) : Bytes := littleEndian 2 c.domain.version.val

/-- The byte string of a leaf. The tag in front tells it from commitments and from inner nodes. -/
def leafMessage (c : Claim) : Bytes := tagBytes "fisher:claim-leaf:v1:" ++ c.core ++ c.version

/-- The byte string of a commitment, which holds the nonce in addition. -/
def commitMessage (c : Claim) (nonce : Digest) : Bytes :=
  tagBytes "fisher:claim-commit:v1:" ++ c.core ++ bigEndian 32 nonce.val ++ c.version

/-- The leaf of a claim in the tree of its period. -/
def leaf (c : Claim) : Digest := sha256 c.leafMessage

/-- What a claimant commits to before revealing the claim. Without the nonce it tells nothing about
it. -/
def commitment (c : Claim) (nonce : Digest) : Digest := sha256 (c.commitMessage nonce)

end Claim

end Settlement
