import Provenance.Shell.Listing
import Provenance.Shell.Tool.Call
import Provenance.Text.Decimal

/-!
# Tools that work on files and directories

Listing, making, copying, moving and removing files.
-/

namespace Provenance.Shell.Filing

/-- What happens to the files, with complaints. -/
structure Progress where
  folder : Folder
  complaints : List Octets

/-- The report of a tool that has gone through its operands. -/
def finish (c : Call) (p : Progress) : Report :=
  ⟨if p.complaints.isEmpty then 0 else 1,
    p.complaints.reverse.map fun t => (true, c.complaint t), c.input, p.folder⟩

/-- Go through operands one after another. -/
def each (c : Call) (names : List Octets) (f : Folder → Octets → Except Octets Folder) : Report :=
  finish c (names.foldl (fun p name =>
    match f p.folder name with
    | .ok folder => { p with folder := folder }
    | .error text => { p with complaints := text :: p.complaints }) ⟨c.folder, []⟩)

def target (f : Folder) (place : Directory) (name : Octets) : Except OsError Folder.Target :=
  f.resolveFrom place name.toText

/-- Everything below a directory. -/
def isBelow (directory path : List String) : Bool :=
  directory.isPrefixOf path && directory.length < path.length

/-- A folder with a new directory. -/
def addDirectory (f : Folder) (path : List String) : Folder :=
  { f with subfolders := f.subfolders ++ [path] }

/-- A folder without a directory and what is below it. -/
def removeTree (f : Folder) (path : List String) : Folder :=
  let parent := path.dropLast
  let kept := f.subfolders.filter fun p => p ≠ path ∧ !isBelow path p
  ⟨f.files.filter fun (p, _) => p ≠ path ∧ !isBelow path p,
    if parent = [] ∨ kept.contains parent then kept else kept ++ [parent]⟩

/-- A folder in which what is below a directory is below another one too. -/
def copyTree (f : Folder) (source path : List String) : Folder :=
  let move (p : List String) : List String := path ++ p.drop source.length
  let files := f.files.filter fun (p, _) => isBelow source p
  let folder := files.foldl (fun f (p, s) => f.put (move p) s) (addDirectory f path)
  { folder with
    subfolders := folder.subfolders ++ (f.subfolders.filter (isBelow source)).map move }

/-- A complaint with the name of a file and a reason. -/
def because (start : String) (name : Octets) (e : OsError) : Octets :=
  start.toList ++ Call.quoted name ++ ": ".toList ++ e.reason.toList

/-- The last component of a name. -/
def lastName (name : Octets) : Octets :=
  ((Octets.trimEnd (· = '/') name).reverse.takeWhile (· ≠ '/')).reverse

/-! ## Listing -/

/-- List directories and files. -/
def ls : Tool := fun c =>
  c.withOptions "1aAdpFCrtURhlinsS" "" [("all", 'a'), ("almost-all", 'A'), ("directory", 'd'),
      ("reverse", 'r')] 2 fun o names =>
    let operands := if names = [] then [['.']] else names
    let found := operands.map fun n => (n, target c.folder c.place n)
    let complaints := found.filterMap fun (n, t) =>
      match t with
      | .error e => some (true, c.complaint (because "cannot access " n e))
      | .ok (.vacant _) => some (true, c.complaint (because "cannot access " n .noEntry))
      | .ok _ => none
    let order (l : List Octets) : List Octets :=
      let l := l.mergeSort fun a b => !decide (b < a)
      if o.has 'r' then l.reverse else l
    let directories := found.filterMap fun (n, t) =>
      match t with
      | .ok (.directory d) => if o.has 'd' then none else some (n, d)
      | _ => none
    let plain := found.filterMap fun (n, t) =>
      match t with
      | .ok (.file _ _) | .ok (.device _) => some n
      | .ok (.directory _) => if o.has 'd' then some n else none
      | _ => none
    let mark (place : Directory) (name : Octets) : Octets :=
      match target c.folder place name with
      | .ok (.directory _) => if o.hasAny "pF" then name ++ ['/'] else name
      | _ => name
    let entries (d : Directory) : List Octets :=
      let names := (c.folder.names d).map Octets.ofText
      let names := if o.has 'a' then ['.'] :: ['.', '.'] :: names else names
      let names := if o.hasAny "aA" then names else names.filter fun n => n.head? ≠ some '.'
      (order names).map (mark d)
    let block (lines : List Octets) : Octets := lines.flatMap (· ++ ['\n'])
    let headers := 1 < operands.length
    let sorted := order (directories.map Prod.fst)
    let blocks := (if plain = [] then [] else [block ((order plain).map (mark c.place))]) ++
      sorted.map fun n =>
        let d := (directories.lookup n).getD c.place
        (if headers then n ++ ":\n".toList else []) ++ block (entries d)
    ⟨if complaints.isEmpty then 0 else 2, complaints ++ [(false, Octets.joined ['\n'] blocks)],
      c.input, c.folder⟩

/-! ## Making and removing -/

/-- Make directories. -/
def mkdir : Tool := fun c =>
  c.withOptions "pv" "m" [("parents", 'p'), ("mode", 'm')] 1 fun o names =>
    if names = [] then c.refuseUsage 1 "missing operand".toList
    else
      let refuse (name : Octets) (e : String) : Except Octets Folder :=
        .error ("cannot create directory ".toList ++ Call.curly name ++ ": ".toList ++ e.toList)
      let make (f : Folder) (name : Octets) : Except Octets Folder :=
        match target f c.place (Octets.trimEnd (· = '/') name) with
        | .ok (.vacant p) => .ok (addDirectory f p)
        | .ok (.directory _) => if o.has 'p' then .ok f else refuse name "File exists"
        | .ok _ => refuse name "File exists"
        | .error e => refuse name e.reason
      each c names fun f name =>
        if o.has 'p' then
          let parts := Octets.splitAt '/' name
          let starts := (List.range parts.length).map fun i =>
            Octets.joined ['/'] (parts.take (i + 1))
          (starts.filter (· ≠ [])).foldlM make f
        else make f name

/-- Remove empty directories. -/
def rmdir : Tool := fun c =>
  c.withOptions "pv" "" [("parents", 'p')] 1 fun _ names =>
    if names = [] then c.refuseUsage 1 "missing operand".toList
    else
      each c names fun f name =>
        match target f c.place name with
        | .ok (.directory (.at p)) =>
          if (f.names (.at p)).isEmpty ∧ p ≠ [] then .ok (removeTree f p)
          else .error ("failed to remove ".toList ++ Call.quoted name ++
            ": Directory not empty".toList)
        | .ok (.vacant _) => .error (because "failed to remove " name .noEntry)
        | .ok _ => .error (because "failed to remove " name .notDirectory)
        | .error e => .error (because "failed to remove " name e)

/-- Remove files. -/
def rm : Tool := fun c =>
  c.withOptions "rRfivd" "" [("recursive", 'r'), ("force", 'f'), ("dir", 'd')] 1 fun o names =>
    if names = [] then if o.has 'f' then c.report 0 [] else c.refuseUsage 1 "missing operand".toList
    else
      each c names fun f name =>
        match target f c.place name with
        | .ok (.file p _) => .ok (f.remove p)
        | .ok (.directory (.at p)) =>
          if (lastName name = ['.'] ∨ lastName name = ['.', '.']) ∧ o.hasAny "rR" then
            .error
              ("refusing to remove '.' or '..' directory: skipping ".toList ++ Call.quoted name)
          else if o.hasAny "rR" ∧ p ≠ [] then .ok (removeTree f p)
          else .error (because "cannot remove " name .isDirectory)
        | .ok (.vacant _) | .error .noEntry | .error .notDirectory =>
          if o.has 'f' then .ok f else .error (because "cannot remove " name .noEntry)
        | .ok _ => .error (because "cannot remove " name .denied)
        | .error e => .error (because "cannot remove " name e)

/-- Make files that are not there. -/
def touch : Tool := fun c =>
  c.withOptions "acm" "dtr" [("no-create", 'c'), ("date", 'd'), ("reference", 'r')] 1 fun o names =>
    if names = [] then c.refuseUsage 1 "missing file operand".toList
    else
      each c names fun f name =>
        match target f c.place name with
        | .ok (.vacant p) => .ok (if o.has 'c' then f else f.put p [])
        | .ok _ => .ok f
        | .error e => .error (because "cannot touch " name e)

/-! ## Copying and moving -/

/-- Where a file goes that is named after its source if the target is a directory. -/
def destination (f : Folder) (place : Directory) (source goal : Octets) :
    Except OsError Folder.Target :=
  match target f place goal with
  | .ok (.directory d) => target f d (lastName source)
  | r => r

/-- Split operands into sources and a target, or complain. -/
def withTarget (c : Call) (names : List Octets)
    (go : List Octets → Octets → Report) : Report :=
  match names with
  | [] => c.refuseUsage 1 "missing file operand".toList
  | [one] => c.refuseUsage 1 ("missing destination file operand after ".toList ++ Call.quoted one)
  | names =>
    let sources := names.dropLast
    let goal := names.getLast?.getD []
    match target c.folder c.place goal with
    | .ok (.directory _) => go sources goal
    | t =>
      if 1 < sources.length then
        c.refuse 1 ("target ".toList ++ Call.quoted goal ++ ": ".toList ++
          (match t with
            | .ok (.vacant _) | .error .noEntry => OsError.noEntry.reason
            | _ => OsError.notDirectory.reason).toList)
      else go sources goal

/-- Copy files. -/
def cp : Tool := fun c =>
  c.withOptions "rRafpivnT" "" [("recursive", 'r'), ("archive", 'a'), ("force", 'f')] 1
    fun o names => withTarget c names fun sources goal =>
      each c sources fun f name =>
        match target f c.place name with
        | .ok (.file p s) =>
          match destination f c.place name goal with
          | .ok (.file q _) =>
            if p = q then .error (Call.quoted name ++ " and ".toList ++ Call.quoted goal ++
              " are the same file".toList)
            else .ok (f.put q s)
          | .ok (.vacant q) => .ok (f.put q s)
          | .ok (.device _) => .ok f
          | .ok (.directory _) =>
            .error ("cannot overwrite directory ".toList ++ Call.quoted goal ++
              " with non-directory".toList)
          | .error e => .error (because "cannot create regular file " goal e)
        | .ok (.directory (.at p)) =>
          if o.hasAny "rRa" then
            match destination f c.place name goal with
            | .ok (.vacant q) => .ok (copyTree f p q)
            | .ok (.directory (.at q)) => .ok (copyTree f p q)
            | _ => .error ("cannot overwrite non-directory ".toList ++ Call.quoted goal ++
                " with directory ".toList ++ Call.quoted name)
          else .error ("-r not specified; omitting directory ".toList ++ Call.quoted name)
        | .ok (.device _) =>
          match destination f c.place name goal with
          | .ok (.file q _) | .ok (.vacant q) => .ok (f.put q [])
          | _ => .ok f
        | .ok _ => .error (because "cannot stat " name .noEntry)
        | .error e => .error (because "cannot stat " name e)

/-- Move files. -/
def mv : Tool := fun c =>
  c.withOptions "fivnT" "" [("force", 'f')] 1 fun _ names =>
    withTarget c names fun sources goal =>
      each c sources fun f name =>
        match target f c.place name with
        | .ok (.file p s) =>
          match destination f c.place name goal with
          | .ok (.file q _) =>
            if p = q then .error (Call.quoted name ++ " and ".toList ++ Call.quoted goal ++
              " are the same file".toList)
            else .ok ((f.remove p).put q s)
          | .ok (.vacant q) => .ok ((f.remove p).put q s)
          | .ok (.directory _) =>
            .error ("cannot overwrite directory ".toList ++ Call.quoted goal ++
              " with non-directory".toList)
          | .ok _ => .ok (f.remove p)
          | .error e => .error ("cannot move ".toList ++ Call.quoted name ++ " to ".toList ++
              Call.quoted goal ++ ": ".toList ++ e.reason.toList)
        | .ok (.directory (.at p)) =>
          match destination f c.place name goal with
          | .ok (.vacant q) => .ok (removeTree (copyTree f p q) p)
          | _ => .error ("cannot move ".toList ++ Call.quoted name ++ " to ".toList ++
              Call.quoted goal)
        | .ok _ => .error (because "cannot stat " name .noEntry)
        | .error e => .error (because "cannot stat " name e)

/-- Give a file another name, under which it can be read as well. -/
def ln : Tool := fun c =>
  c.withOptions "sfnvT" "" [("symbolic", 's'), ("force", 'f')] 1 fun o names =>
    withTarget c names fun sources goal =>
      each c sources fun f name =>
        match target f c.place name, destination f c.place name goal with
        | .ok (.file _ s), .ok (.vacant q) => .ok (f.put q s)
        | .ok (.file _ s), .ok (.file q _) =>
          if o.has 'f' then .ok (f.put q s)
          else .error ((if o.has 's' then "failed to create symbolic link " else
            "failed to create hard link ").toList ++ Call.quoted goal ++ ": File exists".toList)
        | .ok (.directory (.at p)), .ok (.vacant q) => .ok (copyTree f p q)
        | .ok _, _ => .ok f
        | .error e, _ => .error (because "failed to access " name e)

/-- Change nothing about files that are there. -/
def onExisting : Tool := fun c =>
  match c.args.filter fun a => a.head? ≠ some '-' with
  | [] => c.refuseUsage 1 "missing operand".toList
  | [one] => c.refuseUsage 1 ("missing operand after ".toList ++ Call.curly one)
  | _ :: names =>
    each c names fun f name =>
      match target f c.place name with
      | .ok (.vacant _) => .error (because "cannot access " name .noEntry)
      | .ok _ => .ok f
      | .error e => .error (because "cannot access " name e)

/-- Make a file or directory with a name that is not taken. -/
def mktemp : Tool := fun c =>
  c.withOptions "dqut" "p" [("directory", 'd'), ("tmpdir", 'p')] 1 fun o names =>
    let shape := (names.head?).getD "tmp.XXXXXXXXXX".toList
    let directory := if names = [] ∨ o.hasAny "tp" then "/tmp/".toList else []
    let count := (shape.reverse.takeWhile (· = 'X')).length
    let start := shape.take (shape.length - count)
    let candidate (i : Nat) : Octets :=
      directory ++ start ++ (Text.decimal (i + 1)).leftpad count 'a'
    let free := (List.range 100).findSome? fun i =>
      match target c.folder c.place (candidate i) with
      | .ok (.vacant p) => some (candidate i, p)
      | _ => none
    match free with
    | some (name, p) =>
      ⟨0, [(false, name ++ ['\n'])], c.input,
        if o.has 'd' then addDirectory c.folder p else c.folder.put p []⟩
    | none => c.refuse 1 ("failed to create file via template ".toList ++ Call.curly shape ++
        ": No such file or directory".toList)

/-- Compare two files byte by byte. -/
def cmp : Tool := fun c =>
  c.withOptions "sl" "" [("silent", 's'), ("quiet", 's')] 2 fun o names =>
    let names := if names.length = 1 then names ++ [['-']] else names
    let (sources, taken) := c.sources (names.take 2)
    let rest := if taken then [] else c.input
    match sources with
    | [(a, .ok s), (b, .ok t)] =>
      if s = t then ⟨0, [], rest, c.folder⟩
      else
        let same := ((s.zip t).takeWhile fun (x, y) => x = y).length
        let lines := (s.take same).count '\n'
        let pair := a ++ [' '] ++ b
        let shorter := if s.length < t.length then a else b
        let writes : List (Bool × Octets) :=
          if o.has 's' then []
          else if same < s.length ∧ same < t.length ∧ !o.has 'l' then
            [(false, pair ++ " differ: byte ".toList ++ Text.decimal (same + 1) ++
              ", line ".toList ++ Text.decimal (lines + 1) ++ ['\n'])]
          else
            let common := min s.length t.length
            let octal (b : Char) : Octets := (Nat.toDigits 8 b.toNat).leftpad 3 ' '
            let width := (Text.decimal common).length
            let differing := ((s.zip t).zipIdx.filter fun ((x, y), _) => x ≠ y).flatMap
              fun ((x, y), i) => (Text.decimal (i + 1)).leftpad width ' ' ++ [' '] ++ octal x ++
                [' '] ++ octal y ++ ['\n']
            let ended := (s.take common).getLast? = some '\n'
            let place :=
              if o.has 'l' then []
              else (if ended then ", line " else ", in line ").toList ++
                Text.decimal ((s.take common).count '\n' + if ended then 0 else 1)
            let note := "EOF on ".toList ++ shorter ++
              (if common = 0 then " which is empty".toList
              else " after byte ".toList ++ Text.decimal common ++ place)
            (if o.has 'l' then [(false, differing)] else []) ++
              (if s.length = t.length then [] else [(true, c.complaint note)])
        ⟨1, writes, rest, c.folder⟩
    | sources =>
      let errors := sources.filterMap fun (n, s) =>
        match s with
        | .error e => some (true, c.complaint (Call.sayPlainly n e))
        | .ok _ => none
      ⟨2, errors.take 1, rest, c.folder⟩

end Provenance.Shell.Filing
