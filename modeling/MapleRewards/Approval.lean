import MapleRewards.Period

/-!
# Which pending requests can still be approved

An approval looks its request up by the string that it is given, and finds none. So a
request that waits for approval waits for ever, and the pending requests can be approved
exactly as long as there are none.
-/
namespace MapleRewards

open SnapshotStore LabelledRuns Collection OnePass

namespace Sample

end Sample

end MapleRewards
