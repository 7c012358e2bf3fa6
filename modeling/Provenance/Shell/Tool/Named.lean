import Provenance.Shell.Tool.Editing
import Provenance.Shell.Tool.Encoding
import Provenance.Shell.Tool.Filing
import Provenance.Shell.Tool.Letters
import Provenance.Shell.Tool.Lines
import Provenance.Shell.Tool.Printf
import Provenance.Shell.Tool.Search
import Provenance.Shell.Tool.Words

/-!
# Tools by name
-/

namespace Provenance.Shell

def Tool.named? (name : String) : Option Tool :=
  match name with
  | "[" => some (Words.test true)
  | "base64" => some Encoding.base64
  | "basename" => some Words.basename
  | "cat" => some Copying.cat
  | "chmod" | "chown" | "chgrp" => some Filing.onExisting
  | "cmp" => some Filing.cmp
  | "comm" => some Lines.comm
  | "cp" => some Filing.cp
  | "cut" => some Lines.cut
  | "date" => some (Words.constant "Thu Jan  1 00:00:00 UTC 1970")
  | "dd" => some Encoding.dd
  | "dirname" => some Words.dirname
  | "echo" => some Words.echo
  | "expr" => some Words.expr
  | "false" => some (Words.quiet 1)
  | "fold" => some Lines.fold
  | "grep" => some Search.grep
  | "egrep" => some fun c => Search.grep { c with args := ['-', 'E'] :: c.args }
  | "fgrep" => some fun c => Search.grep { c with args := ['-', 'F'] :: c.args }
  | "head" => some Copying.head
  | "hostname" => some (Words.constant "localhost")
  | "id" => some Words.userId
  | "ln" => some Filing.ln
  | "ls" => some Filing.ls
  | "mkdir" => some Filing.mkdir
  | "mktemp" => some Filing.mktemp
  | "mv" => some Filing.mv
  | "nl" => some Lines.nl
  | "nproc" => some (Words.constant "1")
  | "od" => some Encoding.od
  | "paste" => some Lines.paste
  | "printenv" => some Words.printenv
  | "printf" => some Printf.program
  | "rev" => some Copying.rev
  | "rm" => some Filing.rm
  | "rmdir" => some Filing.rmdir
  | "sed" => some Editing.sed
  | "seq" => some Words.seq
  | "sleep" => some Words.sleep
  | "sort" => some Lines.sort
  | "split" => some Lines.split
  | "sync" => some (Words.quiet 0)
  | "tac" => some Copying.tac
  | "tail" => some Copying.tail
  | "tee" => some Copying.tee
  | "test" => some (Words.test false)
  | "touch" => some Filing.touch
  | "tr" => some Letters.tr
  | "true" => some (Words.quiet 0)
  | "uname" => some Words.uname
  | "uniq" => some Lines.uniq
  | "wc" => some Lines.wc
  | "whoami" => some (Words.constant "root")
  | "yes" => some Copying.yes
  | _ => none

end Provenance.Shell
