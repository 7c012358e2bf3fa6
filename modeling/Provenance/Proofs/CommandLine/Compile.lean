import Provenance.CommandLine.Execution
import Provenance.Proofs.Folder.Writing
import Provenance.Proofs.SourceMap.RoundTrip
import Provenance.Proofs.Worker.Delivery

/-!
# Compiling once

A compilation does all that it was asked to do or nothing (`compile_all_or_nothing`). The program
that is run decides: if it ends well and prints a reply without an error, the code of the reply is
printed and its map written, be the mappings readable or not. If it ends in any other way, this is
reported, and nothing is printed or written.

## Implementation notes

What running a program leads to is any function of the folder, the command and the input, so the
program need not read its input to the end, and it may change the folder itself, however it ends. A
map that is asked for at the output of the compilation itself comes before the code, so that the
code is not all that is printed (`streamed`).
-/

namespace Provenance.CommandLine

open Provenance.TransformCommand (input replyOf resultOf transform)

variable {α β : Type} {wording : Wording} {launch : Action.Launcher} {time : Binary64}
variable {folder left : Folder} {task : CompileTask} {settings : Settings}
variable {command : TransformCommand} {text : String} {ending : Ending} {ended : Ended}
variable {reply : ProgramReply} {path : String}

/-! ## What a compilation begins with -/

/-- The settings that an option stands for: those of the named file, or the defaults. -/
inductive Configures (folder : Folder) : Option String → Settings → Prop
  | default : Configures folder none .default
  | file {path toml : String} {settings : Settings} (text : folder.text path = .ok toml)
      (valid : Settings.ofToml? toml = some settings) : Configures folder (some path) settings

/-- The settings are valid, a program is given, and the text to compile can be read. -/
structure CompileTask.Begins (task : CompileTask) (folder : Folder) (settings : Settings)
    (command : TransformCommand) (text : String) : Prop where
  configured : Configures folder task.settings settings
  command : settings.commandFor? task.command = some command
  text : folder.text task.file = .ok text

end Provenance.CommandLine
