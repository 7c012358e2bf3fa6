import Provenance.Json.Parser
import Provenance.Proofs.Json.Numerals
import Provenance.Proofs.Json.Strings

/-!
# Values written and read as documents

The compact text of a value is read as the document that the value is written as
(`ofChars?_print`). That holds of every value: numbers that are not finite are written as null, and
neither the nesting nor the keys of objects matter before the document is evaluated.

## Implementation notes

Scanner and parser are taken one after the other. The tokens of a value stand between them, so each
of the two is one induction over values. The scanner ends a word only when it sees what comes next;
what follows a value must therefore not go on with its last word.
-/

namespace Provenance.Json

/-- The document that a number is written as. -/
def Number.toTree (n : Number) : Tree :=
  match n.numeral? with
  | some m => .numeral m
  | none => .null

mutual

/-- The document that a value is written as. -/
def Value.toTree : Value → Tree
  | .null => .null
  | .bool b => .bool b
  | .number n => n.toTree
  | .string s => .string (some s)
  | .array items => .array (treeItems items)
  | .object members => .object (treeMembers members)

/-- The documents of the items. -/
def treeItems : List Value → List Tree
  | [] => []
  | v :: vs => v.toTree :: treeItems vs

/-- The keys and documents of the members. -/
def treeMembers : List (String × Value) → List (Option String × Tree)
  | [] => []
  | (k, v) :: ms => (some k, v.toTree) :: treeMembers ms

end

mutual

/-- The tokens of a value. -/
def Value.tokens : Value → List Token
  | .null => [.scalar .null]
  | .bool b => [.scalar (.bool b)]
  | .number n => [.scalar n.toTree]
  | .string s => [.string (some s)]
  | .array items => .openArray :: (tokenItems items ++ [.closeArray])
  | .object members => .openObject :: (tokenMembers members ++ [.closeObject])

/-- The tokens of the items, separated by commas. -/
def tokenItems : List Value → List Token
  | [] => []
  | [v] => v.tokens
  | v :: w :: rest => v.tokens ++ .comma :: tokenItems (w :: rest)

/-- The tokens of the members, separated by commas. -/
def tokenMembers : List (String × Value) → List Token
  | [] => []
  | [(k, v)] => .string (some k) :: .colon :: v.tokens
  | (k, v) :: m :: rest =>
    .string (some k) :: .colon :: (v.tokens ++ .comma :: tokenMembers (m :: rest))

end

namespace Token

variable {done : List Token} {chars cs : List Char} {c : Char} {t : Token}
variable {rest : List (Option Char)}

/-! ## Words -/

/-- The text does not go on with a word. -/
def Delimited (rest : List (Option Char)) : Prop :=
  ∀ c, rest.head? = some (some c) → isWordChar c = false

theorem delimited_cons (hc : isWordChar c = false) (rest : List (Option Char)) :
    Delimited (some c :: rest) := by
  rintro c' ⟨⟩
  exact hc

/-- A character of a word neither separates tokens nor opens a string. -/
theorem outside_of_isWordChar (hc : isWordChar c = true) (done : List Token) :
    outside done c = some (.word [c], done) := by
  have hspace : isSpace c = false := by
    by_contra hspace
    simp only [isSpace, Bool.not_eq_false, Bool.or_eq_true, decide_eq_true_eq] at hspace
    rcases hspace with ((rfl | rfl) | rfl) | rfl <;> exact absurd hc (by decide)
  have hquote : c ≠ '"' := by
    rintro rfl
    exact absurd hc (by decide)
  rw [outside, hspace, if_neg Bool.false_ne_true, if_neg hquote, if_pos hc]

theorem scanFrom_word_append (hcs : ∀ c ∈ cs, isWordChar c = true) (chars : List Char)
    (done : List Token) (rest : List (Option Char)) :
    scanFrom (.word chars) done (cs.map some ++ rest) =
      scanFrom (.word (cs.reverse ++ chars)) done rest := by
  induction cs generalizing chars with
  | nil => rfl
  | cons c cs ih =>
      have hstep : step done (.word chars) (some c) = some (.word (c :: chars), done) :=
        if_pos (hcs c List.mem_cons_self)
      rw [List.map_cons, List.cons_append, scanFrom_cons hstep,
        ih fun c' hc' => hcs c' (List.mem_cons_of_mem c hc'), List.reverse_cons, List.append_assoc]
      rfl

/-- A word ends where the text does not go on with it. -/
theorem scanFrom_word_end (ht : ofWord? chars.reverse = some t) (hrest : Delimited rest)
    (done : List Token) :
    scanFrom (.word chars) done rest = scanFrom .outside (t :: done) rest := by
  match rest with
  | [] =>
      rw [scanFrom, scanFrom]
      simp only [ht, Option.map_some]
  | none :: rest => rfl
  | some c :: rest =>
      have hc : isWordChar c = false := hrest c rfl
      have hstep : step done (.word chars) (some c) = step (t :: done) .outside (some c) := by
        rw [step, step, hc, if_neg Bool.false_ne_true, ht, Option.bind_some]
      rw [scanFrom, scanFrom, hstep]

/-- A word is one token. -/
theorem scanFrom_word (hne : cs ≠ []) (hcs : ∀ c ∈ cs, isWordChar c = true)
    (ht : ofWord? cs = some t) (hrest : Delimited rest) (done : List Token) :
    scanFrom .outside done (cs.map some ++ rest) = scanFrom .outside (t :: done) rest := by
  cases cs with
  | nil => exact absurd rfl hne
  | cons c cs =>
      have hstep : step done .outside (some c) = some (.word [c], done) :=
        outside_of_isWordChar (hcs c List.mem_cons_self) done
      rw [List.map_cons, List.cons_append, scanFrom_cons hstep,
        scanFrom_word_append fun c' hc' => hcs c' (List.mem_cons_of_mem c hc')]
      refine scanFrom_word_end ?_ hrest done
      rw [List.reverse_append, List.reverse_reverse]
      exact ht

/-! ## Numbers -/

theorem isWordChar_of_isDigit (hc : Numeral.isDigit c = true) : isWordChar c = true := by
  have hdigit := Numeral.isDigit_iff.mp hc
  simp only [isWordChar, Char.isAlphanum, hdigit, Bool.or_true, Bool.true_or]

theorem isWordChar_of_mem_print {n : Numeral} (h : n.Proper) (hc : c ∈ n.print) :
    isWordChar c = true := by
  have hdigits {ds : List Char} (hds : Numeral.Digits ds) (hc : c ∈ ds) : isWordChar c = true :=
    isWordChar_of_isDigit (hds.2 c hc)
  rw [Numeral.print_eq, List.mem_append, List.mem_append, List.mem_append] at hc
  rcases hc with hc | hc | hc | hc
  · cases hnegative : n.negative with
    | false => simp [hnegative] at hc
    | true =>
        obtain rfl : c = '-' := by simpa [hnegative] using hc
        decide
  · exact hdigits h.whole hc
  · cases hfraction : n.fraction with
    | none => simp [hfraction] at hc
    | some ds =>
        rw [hfraction, Option.elim_some, List.mem_cons] at hc
        rcases hc with rfl | hc
        · decide
        · exact hdigits (h.fraction ds hfraction) hc
  · rcases hexponent : n.exponent with _ | ⟨negative, ds⟩
    · simp [hexponent, Numeral.exponentText] at hc
    · rw [hexponent, Numeral.exponentText, Option.elim_some, List.mem_cons, List.mem_cons] at hc
      rcases hc with rfl | rfl | hc
      · decide
      · cases negative <;> decide
      · exact hdigits (h.exponent _ hexponent) hc

/-- The text of a numeral is none of the three names. -/
theorem ofWord?_print {n : Numeral} (h : n.Proper) :
    ofWord? n.print = some (.scalar (.numeral n)) := by
  have hread := Numeral.ofChars?_print h
  have hname {name : List Char} (hnone : Numeral.ofChars? name = none) : n.print ≠ name := by
    rintro rfl
    rw [hread] at hnone
    cases hnone
  rw [ofWord?, if_neg (hname rfl), if_neg (hname rfl), if_neg (hname rfl), hread]
  rfl

theorem print_ne_nil {n : Numeral} (h : n.Proper) : n.print ≠ [] := by
  rw [Numeral.print_eq]
  exact List.append_ne_nil_of_right_ne_nil _ (List.append_ne_nil_of_left_ne_nil h.whole.1 _)

theorem scanFrom_null (hrest : Delimited rest) (done : List Token) :
    scanFrom .outside done (['n', 'u', 'l', 'l'].map some ++ rest) =
      scanFrom .outside (.scalar .null :: done) rest :=
  scanFrom_word (List.cons_ne_nil _ _) (List.all_eq_true.mp rfl) rfl hrest done

/-- A number is one token, whether it is finite or not. -/
theorem scanFrom_number (n : Number) (hrest : Delimited rest) (done : List Token) :
    scanFrom .outside done (n.print.map some ++ rest) =
      scanFrom .outside (.scalar n.toTree :: done) rest := by
  rw [Number.print, Number.toTree]
  cases hnumeral : n.numeral? with
  | none => exact scanFrom_null hrest done
  | some m =>
      have hproper := Numeral.proper_of_numeral? hnumeral
      exact scanFrom_word (print_ne_nil hproper) (fun c hc => isWordChar_of_mem_print hproper hc)
        (ofWord?_print hproper) hrest done

/-! ## Values -/

mutual

/-- The scanner turns the text of a value into its tokens. -/
theorem scanFrom_value (v : Value) (done : List Token) {rest : List (Option Char)}
    (hrest : Delimited rest) :
    scanFrom .outside done (v.print.map some ++ rest) =
      scanFrom .outside (v.tokens.reverse ++ done) rest := by
  match v with
  | .null => exact scanFrom_null hrest done
  | .bool true | .bool false =>
      exact scanFrom_word (List.cons_ne_nil _ _) (List.all_eq_true.mp rfl) rfl hrest done
  | .number n => exact scanFrom_number n hrest done
  | .string s => exact scanFrom_quote done s rest
  | .array items =>
      have hopen : step done .outside (some '[') = some (.outside, .openArray :: done) := rfl
      have hclose (done : List Token) :
          step done .outside (some ']') = some (.outside, .closeArray :: done) := rfl
      have hitems := scanFrom_items items (.openArray :: done)
        (delimited_cons (c := ']') (by decide) rest)
      rw [Value.print, List.map_cons, List.cons_append, scanFrom_cons hopen, List.map_append,
        List.append_assoc, List.map_singleton, List.singleton_append, hitems, scanFrom_cons (hclose _),
        Value.tokens, List.reverse_cons, List.reverse_append, List.append_assoc, List.append_assoc]
      rfl
  | .object members =>
      have hopen : step done .outside (some '{') = some (.outside, .openObject :: done) := rfl
      have hclose (done : List Token) :
          step done .outside (some '}') = some (.outside, .closeObject :: done) := rfl
      have hmembers := scanFrom_members members (.openObject :: done)
        (delimited_cons (c := '}') (by decide) rest)
      rw [Value.print, List.map_cons, List.cons_append, scanFrom_cons hopen, List.map_append,
        List.append_assoc, List.map_singleton, List.singleton_append, hmembers,
        scanFrom_cons (hclose _), Value.tokens, List.reverse_cons, List.reverse_append,
        List.append_assoc, List.append_assoc]
      rfl

theorem scanFrom_items (items : List Value) (done : List Token) {rest : List (Option Char)}
    (hrest : Delimited rest) :
    scanFrom .outside done ((printItems items).map some ++ rest) =
      scanFrom .outside ((tokenItems items).reverse ++ done) rest := by
  match items with
  | [] => rfl
  | [v] => exact scanFrom_value v done hrest
  | v :: w :: items =>
      have hcomma (done : List Token) :
          step done .outside (some ',') = some (.outside, .comma :: done) := rfl
      rw [printItems, List.map_append, List.append_assoc, List.map_cons, List.cons_append,
        scanFrom_value v done (delimited_cons (by decide) _), scanFrom_cons (hcomma _),
        scanFrom_items (w :: items) _ hrest, tokenItems, List.reverse_append, List.reverse_cons,
        List.append_assoc, List.append_assoc]
      rfl

theorem scanFrom_members (members : List (String × Value)) (done : List Token)
    {rest : List (Option Char)} (hrest : Delimited rest) :
    scanFrom .outside done ((printMembers members).map some ++ rest) =
      scanFrom .outside ((tokenMembers members).reverse ++ done) rest := by
  have hcolon (done : List Token) :
      step done .outside (some ':') = some (.outside, .colon :: done) := rfl
  match members with
  | [] => rfl
  | [(k, v)] =>
      rw [printMembers, List.map_append, List.append_assoc, List.map_cons, List.cons_append,
        scanFrom_quote, scanFrom_cons (hcolon _), scanFrom_value v _ hrest, tokenMembers,
        List.reverse_cons, List.reverse_cons, List.append_assoc, List.append_assoc]
      rfl
  | (k, v) :: m :: members =>
      have hcomma (done : List Token) :
          step done .outside (some ',') = some (.outside, .comma :: done) := rfl
      rw [printMembers, List.map_append, List.append_assoc, List.map_cons, List.cons_append,
        scanFrom_quote, scanFrom_cons (hcolon _), List.map_append, List.append_assoc, List.map_cons,
        List.cons_append, scanFrom_value v _ (delimited_cons (by decide) _),
        scanFrom_cons (hcomma _), scanFrom_members (m :: members) _ hrest, tokenMembers,
        List.reverse_cons, List.reverse_cons, List.reverse_append, List.reverse_cons]
      simp only [List.append_assoc, List.cons_append, List.nil_append]

end

theorem scan_print (v : Value) : scan (v.print.map some) = some v.tokens := by
  have hend : Delimited [] := nofun
  have hscan := scanFrom_value v [] hend
  rw [List.append_nil, List.append_nil] at hscan
  rw [scan, hscan, scanFrom, List.reverse_reverse]

end Token

namespace Expecting

variable {e : Expecting} {t : Token}

theorem run_cons (next : Expecting) (h : e.step t = some next) (ts : List Token) :
    run e (t :: ts) = run next ts := by
  cases e <;> simp only [run, h]

mutual

/-- The parser hands the document of a value to what is open around it. -/
theorem run_tokens (v : Value) (canClose : Bool) (stack : List Frame) (rest : List Token) :
    run (.value canClose stack) (v.tokens ++ rest) = run (deliver v.toTree stack) rest := by
  match v with
  | .null | .bool _ | .number _ | .string _ => exact run_cons _ rfl rest
  | .array [] => exact (run_cons _ rfl _).trans (run_cons _ rfl rest)
  | .array (v :: items) =>
      rw [Value.tokens, List.cons_append, run_cons (.value true (.array [] :: stack)) rfl,
        List.append_assoc, List.singleton_append, run_tokenItems (v :: items) (List.cons_ne_nil _ _)]
      rfl
  | .object [] => exact (run_cons _ rfl _).trans (run_cons _ rfl rest)
  | .object (m :: members) =>
      rw [Value.tokens, List.cons_append, run_cons (.key true [] stack) rfl,
        List.append_assoc, List.singleton_append,
        run_tokenMembers (m :: members) (List.cons_ne_nil _ _)]
      rfl

/-- The parser collects items up to the end of their array. -/
theorem run_tokenItems (items : List Value) (hne : items ≠ []) (canClose : Bool)
    (collected : List Tree) (stack : List Frame) (rest : List Token) :
    run (.value canClose (.array collected :: stack)) (tokenItems items ++ .closeArray :: rest) =
      run (deliver (.array (collected.reverse ++ treeItems items)) stack) rest := by
  match items with
  | [] => exact absurd rfl hne
  | [v] =>
      rw [tokenItems, run_tokens v, deliver, run_cons _ rfl, List.reverse_cons]
      rfl
  | v :: w :: items =>
      rw [tokenItems, List.append_assoc, run_tokens v, deliver, List.cons_append,
        run_cons (.value false (.array (v.toTree :: collected) :: stack)) rfl,
        run_tokenItems (w :: items) (List.cons_ne_nil _ _), List.reverse_cons, List.append_assoc]
      rfl

/-- The parser collects members up to the end of their object. -/
theorem run_tokenMembers (members : List (String × Value)) (hne : members ≠ []) (canClose : Bool)
    (collected : List (Option String × Tree)) (stack : List Frame) (rest : List Token) :
    run (.key canClose collected stack) (tokenMembers members ++ .closeObject :: rest) =
      run (deliver (.object (collected.reverse ++ treeMembers members)) stack) rest := by
  match members with
  | [] => exact absurd rfl hne
  | [(k, v)] =>
      rw [tokenMembers, List.cons_append, run_cons (.colon collected (some k) stack) rfl,
        List.cons_append, run_cons (.value false (.object collected (some k) :: stack)) rfl,
        run_tokens v, deliver, run_cons _ rfl, List.reverse_cons]
      rfl
  | (k, v) :: m :: members =>
      rw [tokenMembers, List.cons_append, run_cons (.colon collected (some k) stack) rfl,
        List.cons_append, run_cons (.value false (.object collected (some k) :: stack)) rfl,
        List.append_assoc, run_tokens v, deliver, List.cons_append,
        run_cons (.key false ((some k, v.toTree) :: collected) stack) rfl,
        run_tokenMembers (m :: members) (List.cons_ne_nil _ _), List.reverse_cons,
        List.append_assoc]
      rfl

end

end Expecting

namespace Tree

/-- The text of a value is read as the document of the value. -/
theorem ofChars?_print (v : Value) : ofChars? (v.print.map some) = some v.toTree := by
  have hrun := Expecting.run_tokens v false [] []
  rw [List.append_nil] at hrun
  rw [ofChars?, Token.scan_print, Option.bind_some, hrun]
  rfl

theorem ofText?_compact (v : Value) : ofText? v.compact = some v.toTree := by
  rw [ofText?, Value.compact, String.toList_ofList, ofChars?_print]

end Tree

end Provenance.Json
