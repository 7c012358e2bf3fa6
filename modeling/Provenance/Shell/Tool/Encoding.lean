import Provenance.Shell.Arithmetic
import Provenance.Shell.Tool.Copying
import Provenance.Shell.Tool.Escape

/-!
# Bytes in other forms

Bytes are written as letters or numbers, read back from letters, or copied block by block.
-/

namespace Provenance.Shell.Encoding

open Copying

/-! ## Letters for groups of six bits -/

/-- The letters of the numbers below sixty-four. -/
def alphabet : List Char :=
  "ABCDEFGHIJKLMNOPQRSTUVWXYZabcdefghijklmnopqrstuvwxyz0123456789+/".toList

/-- Four letters for three bytes; fewer bytes are filled up. -/
def encodeGroup : Octets → Octets
  | [] => []
  | bytes =>
    let n := ((bytes ++ ['\x00', '\x00', '\x00']).take 3).foldl (fun n c => n * 256 + c.toNat) 0
    let letter (k : Nat) : Char := (alphabet[n / 64 ^ k % 64]?).getD 'A'
    let letters := [letter 3, letter 2, letter 1, letter 0]
    letters.take (bytes.length + 1) ++ List.replicate (3 - bytes.length) '='

/-- Cut a text into groups of a length, at most `fuel` of them, behind those in `done`, which are in
reverse. -/
def groupsOnto (n : Nat) : Nat → (done : List Octets) → Octets → List Octets
  | 0, done, _ => done.reverse
  | _ + 1, done, [] => done.reverse
  | fuel + 1, done, s => groupsOnto n fuel (s.take n :: done) (s.drop n)

/-- Cut a text into groups of a length, which is not zero. -/
def groups (n : Nat) (s : Octets) : List Octets := groupsOnto n (s.length + 1) [] s

/-- The bytes of four letters, and whether these are in order. -/
def decodeGroup (letters : Octets) : Octets × Bool :=
  let known := letters.takeWhile alphabet.contains
  let padding := letters.drop known.length
  let n := ((known ++ ['A', 'A', 'A', 'A']).take 4).foldl
    (fun n c => n * 64 + (alphabet.idxOf c)) 0
  let bytes := [Char.ofNat (n / 65536), Char.ofNat (n / 256 % 256), Char.ofNat (n % 256)]
  (bytes.take (known.length - 1),
    letters.length = 4 && padding.all (· = '=') && 2 ≤ known.length)

/-- Write bytes as letters, or the other way round. -/
def base64 : Tool := fun c =>
  c.withOptions "di" "w" [("decode", 'd'), ("ignore-garbage", 'i'), ("wrap", 'w')] 1
    fun o names =>
      let (sources, taken) := c.sources (names.take 1)
      let rest := if taken then [] else c.input
      match sources with
      | (_, .ok s) :: _ =>
        if o.has 'd' then
          let s := s.filter fun b => b ≠ '\n' ∧ (!o.has 'i' || alphabet.contains b || b = '=')
          let parts := (groups 4 s).map decodeGroup
          let good := parts.takeWhile Prod.snd
          let bad := (parts.drop good.length).take 1
          let out := (good ++ bad).flatMap Prod.fst
          ⟨if bad.isEmpty then 0 else 1, [(false, out)] ++
            (if bad.isEmpty then [] else [(true, c.complaint "invalid input".toList)]), rest,
            c.folder⟩
        else
          let letters := (groups 3 s).flatMap encodeGroup
          let width := ((o.value? 'w').bind count?).getD 76
          let out := if width = 0 then letters
            else (groups width letters).flatMap (· ++ ['\n'])
          ⟨0, [(false, out)], rest, c.folder⟩
      | (name, .error e) :: _ => c.refuse 1 (Call.sayPlainly name e)
      | [] => c.report 0 []

/-! ## Numbers -/

/-- How groups of bytes are shown. -/
structure Form where
  /-- The letter of the form: characters, or numbers in some base. -/
  letter : Char
  size : Nat
  width : Nat

/-- The digits of a number in a base, with zeros up to a width. -/
def digits (base width n : Nat) : Octets := (Nat.toDigits base n).leftpad width '0'

/-- A byte as a character or by its escape. -/
def character (c : Char) : Octets :=
  match c with
  | '\x00' => "\\0".toList
  | '\x07' => "\\a".toList
  | '\x08' => "\\b".toList
  | '\x0c' => "\\f".toList
  | '\n' => "\\n".toList
  | '\r' => "\\r".toList
  | '\t' => "\\t".toList
  | '\x0b' => "\\v".toList
  | c => if ' ' ≤ c ∧ c ≤ '~' then [c] else digits 8 3 c.toNat

/-- The names of the characters that cannot be seen. -/
def characterNames : List String :=
  ["nul", "soh", "stx", "etx", "eot", "enq", "ack", "bel", "bs", "ht", "nl", "vt", "ff", "cr",
    "so", "si", "dle", "dc1", "dc2", "dc3", "dc4", "nak", "syn", "etb", "can", "em", "sub", "esc",
    "fs", "gs", "rs", "us", "sp"]

/-- Number of digits of a number of some bytes in a form. -/
def digitCount (letter : Char) (size : Nat) : Nat :=
  match letter with
  | 'x' => 2 * size
  | 'o' => (8 * size + 2) / 3
  | 'u' => (Nat.toDigits 10 (256 ^ size - 1)).length
  | 'd' => (Nat.toDigits 10 (256 ^ size / 2)).length + 1
  | _ => 3

/-- The form of a letter and a size. -/
def formOf (letter : Char) (size : Nat) : Form :=
  ⟨letter, size, digitCount letter size + 1⟩

/-- A group of bytes in a form, the least significant one first. -/
def Form.text (f : Form) (bytes : Octets) : Octets :=
  let n := bytes.reverse.foldl (fun n c => n * 256 + c.toNat) 0
  let body : Octets :=
    match f.letter with
    | 'c' => bytes.flatMap character
    | 'a' =>
      let k := n % 128
      if k = 127 then "del".toList
      else ((characterNames[k]?).map String.toList).getD [Char.ofNat k]
    | 'x' => digits 16 (digitCount 'x' f.size) n
    | 'o' => digits 8 (digitCount 'o' f.size) n
    | 'd' =>
      if n < 256 ^ f.size / 2 then Text.decimal n else '-' :: Text.decimal (256 ^ f.size - n)
    | _ => Text.decimal n
  body.leftpad f.width ' '

/-- Read the forms of a type. -/
def forms : Nat → Octets → Option (List Form)
  | 0, _ => some []
  | _ + 1, [] => some []
  | fuel + 1, l :: rest =>
    if l = 'a' ∨ l = 'c' then (forms fuel rest).map (formOf l 1 :: ·)
    else if "xoud".toList.contains l then
      let (size, rest) := rest.span Char.isDigit
      match rest with
      | 'C' :: rest => (forms fuel rest).map (formOf l 1 :: ·)
      | 'S' :: rest => (forms fuel rest).map (formOf l 2 :: ·)
      | 'I' :: rest => (forms fuel rest).map (formOf l 4 :: ·)
      | 'L' :: rest => (forms fuel rest).map (formOf l 8 :: ·)
      | rest =>
        let n := if size = [] then 4 else Integer.valueOf 10 size
        (forms fuel rest).map (formOf l n :: ·)
    else none

/-- The number of bytes in a row that an argument asks for, if it does. -/
def rowWidth? (arg : Octets) : Option Nat :=
  match arg with
  | ['-', 'w'] => some 32
  | '-' :: 'w' :: ds => if ds.all Char.isDigit then some (max 1 (Integer.valueOf 10 ds)) else none
  | _ => none

/-- Show the bytes of files as characters or numbers. -/
def od : Tool := fun c =>
  let across := ((c.args.filterMap rowWidth?).getLast?).getD 16
  let args := c.args.filter fun a => (rowWidth? a).isNone
  let long := [("address-radix", 'A'), ("format", 't'), ("read-bytes", 'N'), ("skip-bytes", 'j'),
    ("output-duplicates", 'v')]
  Call.withOptions { c with args := args } "abcdovx" "AtNj" long 1 fun o names =>
    let chosen := o.given.filterMap fun (l, v) =>
      match l with
      | 'a' => some (some [formOf 'a' 1])
      | 'b' => some (some [formOf 'o' 1])
      | 'c' => some (some [formOf 'c' 1])
      | 'd' => some (some [formOf 'u' 2])
      | 'o' => some (some [formOf 'o' 2])
      | 'x' => some (some [formOf 'x' 2])
      | 't' => some (forms (v.length + 1) v)
      | _ => none
    if chosen.any Option.isNone then
      c.refuse 1 ("invalid type string ".toList ++ Call.curly ((o.value? 't').getD []))
    else
      let fs := (chosen.filterMap id).flatten
      let fs := if fs.isEmpty then [formOf 'o' 2] else fs
      let base := ((o.value? 'A').bind List.head?).getD 'o'
      let address (n : Nat) : Octets :=
        match base with
        | 'n' => []
        | 'd' => digits 10 7 n
        | 'x' => digits 16 6 n
        | _ => digits 8 7 n
      c.gather names 1 Call.sayPlainly fun sources =>
        let s := sources.flatMap Prod.snd
        let start := ((o.value? 'j').bind count?).getD 0
        let s := s.drop start
        let s := ((o.value? 'N').bind count?).elim s s.take
        let blocks := groups across s
        -- columns of different forms stand below one another
        let room := (fs.map fun f => across / f.size * f.width).foldl max 0
        let show1 (f : Form) (block : Octets) : Octets :=
          (groups f.size block).flatMap fun g =>
            let text := f.text (g ++ List.replicate (f.size - g.length) '\x00')
            text.leftpad (room / (across / f.size)) ' '
        let block (i : Nat) (b : Octets) : Octets :=
          fs.zipIdx.flatMap fun (f, k) =>
            let lead := address (start + across * i)
            (if k = 0 then lead else List.replicate lead.length ' ') ++ show1 f b ++ ['\n']
        let step : List Octets × Option Octets × Bool → Octets × Nat →
            List Octets × Option Octets × Bool
          | (done, last, starred), (b, i) =>
            if last = some b ∧ b.length = across ∧ !o.has 'v' then
              (if starred then done else ['*', '\n'] :: done, last, true)
            else (block i b :: done, some b, false)
        let (out, _, _) := blocks.zipIdx.foldl step ([], none, false)
        out.reverse.flatten ++ (if base = 'n' then [] else address (start + s.length) ++ ['\n'])

/-! ## Blocks -/

/-- Copy blocks of bytes. -/
def dd : Tool := fun c =>
  let given := c.args.filterMap fun a =>
    match a.span (· ≠ '=') with
    | (name, _ :: value) => some (String.ofList name, value)
    | _ => none
  match c.args.find? fun a => !a.contains '=' with
  | some bad => c.refuseUsage 1 ("unrecognized operand ".toList ++ Call.curly bad)
  | none =>
    let number (name : String) : Option Nat := (given.lookup name).bind count?
    let size := max 1 ((number "bs").getD ((number "ibs").getD 512))
    let source : Except OsError Octets := match given.lookup "if" with
      | some path => c.read path
      | none => .ok c.input
    match source with
    | .error e =>
      c.refuse 1 ("failed to open ".toList ++ Call.quoted ((given.lookup "if").getD []) ++
        ": ".toList ++ e.reason.toList)
    | .ok s =>
      let behind := s.drop (size * (number "skip").getD 0)
      let taken := (number "count").elim behind fun n => behind.take (size * n)
      let whole := taken.length / size
      let part := if taken.length % size = 0 then 0 else 1
      let record (word : String) : Octets :=
        Text.decimal whole ++ ['+'] ++ Text.decimal part ++ word.toList
      let summary := record " records in\n" ++ record " records out\n"
      let status := (given.lookup "status").getD []
      let notes := if status = "none".toList then []
        else if status = "noxfer".toList then summary
        else summary ++ Text.decimal taken.length ++ " bytes copied, 0.0001 s, 1.0 MB/s\n".toList
      let rest := if (given.lookup "if").isSome then c.input else behind.drop taken.length
      match given.lookup "of" with
      | none => ⟨0, [(false, taken), (true, notes)], rest, c.folder⟩
      | some path =>
        match c.folder.forWriting c.place (Octets.toText path) with
        | .ok (.inr p) => ⟨0, [(true, notes)], rest, c.folder.put p (Octets.toBytes taken)⟩
        | .ok (.inl _) => ⟨0, [(true, notes)], rest, c.folder⟩
        | .error e => c.refuse 1 ("failed to open ".toList ++ Call.quoted path ++ ": ".toList ++
            e.reason.toList)

end Provenance.Shell.Encoding
