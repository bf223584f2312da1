import Variorum.Library.Math
import Variorum.Library.Text

/-!
# The standard library

All library functions, registered in their modules and globally.
-/

namespace Variorum.Library

def standard : Registry :=
  (textFunctions ++ mathFunctions).foldl Registry.add Registry.empty

end Variorum.Library
