import DspCode.Encoding.Table.Rows00To1F
import DspCode.Encoding.Table.Rows20To5F
import DspCode.Encoding.Table.Rows60To7F
import DspCode.Encoding.Table.Rows80To8F
import DspCode.Encoding.Table.Rows90ToCF
import DspCode.Encoding.Table.RowsD0ToDF
import DspCode.Encoding.Table.RowsE0ToEF
import DspCode.Encoding.Table.RowsF0ToFF

/-!
# The encoding table

All encodings of the processor, by first byte.
-/

namespace DspCode.Encoding

/-- The encodings of the processor, in search order. -/
def table : List Encoding :=
  rows00To1F ++ rows20To5F ++ rows60To7F ++ rows80To8F ++ rows90ToCF ++ rowsD0ToDF ++
    rowsE0ToEF ++ rowsF0ToFF

end DspCode.Encoding
