import MusicIndex.Proofs.FeedReport
import MusicIndex.Proofs.Growth

namespace MusicIndex

open Ledger

namespace Ledger

variable {log more : List Call}

end Ledger

end MusicIndex
