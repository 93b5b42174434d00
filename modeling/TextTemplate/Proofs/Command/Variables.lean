import TextTemplate.Proofs.Command.Inputs
import TextTemplate.Proofs.Evaluation
import TextTemplate.Proofs.Render.Paths
import TextTemplate.Proofs.Value.Settling

/-!
Variables of the command. They lie in layers, the globals of the configuration below the data and the data
below what the arguments define; the uppermost layer with a name gives the template its value.
-/
namespace TextTemplate.Command

section Layers

variable {files : FileTree} {console : List UInt8} {arguments : Arguments}

namespace Inputs

/-- The globals of the configuration as values. -/
def globals (inputs : Inputs) : Fields Value :=
  inputs.settings.globals.map fun entry => (entry.1, entry.2.value)

/-- The value of a variable: that of its last define, else that in the data, else its global. -/
def get? (inputs : Inputs) (name : String) : Option Value :=
  (inputs.defines.reverse.lookup name).or ((inputs.data.entries.get? name).or (inputs.globals.reverse.lookup name))

namespace ReadBy

variable {inputs : Inputs}

end ReadBy

end Inputs

end Layers

end TextTemplate.Command
