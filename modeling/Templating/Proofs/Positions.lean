import Templating.Proofs.Pointing
import Mathlib.Order.Bounds.Defs

/-!
What positions say of the offsets they stand for. A position gives the last boundary of characters up to
an offset, its line and column lead there from the start of the text, and positions follow each other as
their offsets do, except at the end of the longest texts, where the next line or column is no word.
-/
namespace Templating

namespace Text

end Text

namespace Position

end Position
end Templating
