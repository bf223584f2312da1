import Variorum.Config
import Variorum.Json.Decoder

/-!
# Settings in a document

Every setting may be missing and then has its usual value.
-/

namespace Variorum.Config

def decoder : Json.Decoder Config
  | room, t => do
    let usual : Config := {}
    let fs ← Json.Decoder.fields
      ["max_expansion_depth", "prune_unreferenced_axes", "parallel", "preamble"] room t
    return {
      maxDepth := ← fs.optional "max_expansion_depth" .word usual.maxDepth
      prune := ← fs.optional "prune_unreferenced_axes" .bool usual.prune
      parallel := ← fs.optional "parallel" .bool usual.parallel
      preamble := ← fs.optional "preamble" (.nullable .string) usual.preamble }

def ofJson? (s : String) : Option Config :=
  decoder.run? s

end Variorum.Config
