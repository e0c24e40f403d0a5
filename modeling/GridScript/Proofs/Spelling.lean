import GridScript.Formula.Token
import Mathlib.Data.List.Basic
import Mathlib.Data.List.TakeWhile

/-!
# How the tokens of a formula are written

`Reads` says which characters a token is read from, and what may not follow them; `Cut` cuts a
text from the left into blanks and tokens. `tokenize_eq_ok_iff` says that scanning finds exactly
the tokens of such a cutting. From it `operators_spelled` says how operators are written:
as they are documented to be (`spellings`), except that an equals sign behind `&` or `|` makes a
logical operator as well, as `ampersand_equals_conjoins` shows.
-/

namespace GridScript.Token

/-- How operators are documented to be written. -/
def spellings : Token → List String
  | .op .and => ["and", "&&"]
  | .op .or => ["or", "||"]
  | .op .eq => ["=", "=="]
  | .op operator => [operator.symbol]
  | .not => ["not", "!"]
  | _ => []

/-- The signs made of one mark or two, with the tokens they are read as. -/
def signs : List (List Char × Token) :=
  [(['+'], .op .add), (['-'], .op .sub), (['*'], .op .mul), (['/'], .op .div),
    (['%'], .op .mod), (['^'], .op .pow), (['='], .op .eq), (['=', '='], .op .eq),
    (['!', '='], .op .ne), (['<'], .op .lt), (['<', '='], .op .le), (['>'], .op .gt),
    (['>', '='], .op .ge), (['&', '&'], .op .and), (['&', '='], .op .and),
    (['|', '|'], .op .or), (['|', '='], .op .or), (['!'], .not), (['('], .leftParen),
    ([')'], .rightParen), (['['], .leftSquare), ([']'], .rightSquare), ([','], .comma)]

/-- A character that a text is put between. -/
def isQuote (c : Char) : Bool :=
  c == '"' || c.toNat == 39

/-- A token is read from the characters `source` when the characters `behind` follow. -/
inductive Reads : Token → (source behind : List Char) → Prop where
  /-- A number goes on as long as there are digits and points. -/
  | number {value : Number} {first : Char} {more behind : List Char}
    (digits : ∀ c ∈ first :: more, inNumber c = true)
    (ends : ∀ c ∈ behind.head?, inNumber c = false)
    (reads : Number.parse? (String.ofList (first :: more)) = some value) :
    Reads (.number value) (first :: more) behind
  /-- A text goes on up to the next mark of the kind it starts with. -/
  | text {mark : Char} {content behind : List Char} (quoted : isQuote mark = true)
    (ends : mark ∉ content) :
    Reads (.text (String.ofList content)) (mark :: content ++ [mark]) behind
  /-- A word goes on as long as there are letters, digits and underscores. -/
  | word {first : Char} {more behind : List Char} (starts : startsName first = true)
    (letters : ∀ c ∈ more, inName c = true) (ends : ∀ c ∈ behind.head?, inName c = false) :
    Reads (ofWord (String.ofList (first :: more))) (first :: more) behind
  /-- Marks are read together as long as they make a token together. -/
  | sign {token : Token} {source behind : List Char} (written : (source, token) ∈ signs)
    (ends : ∀ c ∈ behind.head?, ∀ other, (source ++ [c], other) ∉ signs) :
    Reads token source behind

/-- A single mark is a sign if it is a token of its own or an operator without another
mark. -/
theorem sign_single_iff {first : Char} {token : Token} : ([first], token) ∈ signs ↔
    ofSymbol? first = some token ∨
      startsOperator first = true ∧ ofOperator? first false = some token := by
  constructor
  · have hall : signs.all (fun sign => sign.1.all fun c => sign.1 != [c] ||
        ofSymbol? c == some sign.2 || startsOperator c && ofOperator? c false == some sign.2) =
        true := by decide
    intro hm
    have hsign := List.all_eq_true.1 (List.all_eq_true.1 hall _ hm) first (by simp)
    simpa using hsign
  · rintro (h | ⟨-, h⟩)
    · unfold ofSymbol? at h
      split at h <;> cases h <;> decide
    · unfold ofOperator? at h
      split at h
      all_goals first
        | contradiction
        | cases h; decide

/-- Two marks are a sign if the second one extends the operator of the first. -/
theorem sign_pair_iff {first second : Char} {token : Token} :
    ([first, second], token) ∈ signs ↔
      startsOperator first = true ∧ extendsOperator first second = true ∧
        ofOperator? first true = some token := by
  constructor
  · have hall : signs.all (fun sign => sign.1.all fun c => sign.1.all fun d => sign.1 != [c, d] ||
        startsOperator c && extendsOperator c d && ofOperator? c true == some sign.2) =
        true := by decide
    intro hm
    have hsign := List.all_eq_true.1 (List.all_eq_true.1 hall _ hm) first (by simp)
    simpa [and_assoc] using List.all_eq_true.1 hsign second (by simp)
  · rintro ⟨-, hextends, h⟩
    unfold ofOperator? at h
    split at h
    all_goals first
      | contradiction
      | cases h; simpa [extendsOperator, signs, or_comm] using hextends

/-- Every sign is one mark or two. -/
theorem sign_cases {token : Token} {source : List Char} (h : (source, token) ∈ signs) :
    (∃ c, source = [c]) ∨ ∃ c d, source = [c, d] := by
  have hall : ∀ sign ∈ signs, sign.1.length = 1 ∨ sign.1.length = 2 := by decide
  exact (hall _ h).imp List.length_eq_one_iff.1 List.length_eq_two.1

/-- What is left behind a stretch does not go on with it. -/
theorem ends_dropWhile (goes : Char → Bool) (rest : List Char) :
    ∀ c ∈ (rest.dropWhile goes).head?, goes c = false := by
  intro c hc
  have hhead := List.head?_dropWhile_not goes rest
  rw [Option.mem_def.1 hc] at hhead
  simpa using hhead

/-- A stretch that is followed by something else is taken as a whole. -/
theorem span_of_ends {goes : Char → Bool} {stretch behind : List Char}
    (h : ∀ c ∈ stretch, goes c = true) (hends : ∀ c ∈ behind.head?, goes c = false) :
    (stretch ++ behind).takeWhile goes = stretch ∧
      (stretch ++ behind).dropWhile goes = behind := by
  rw [List.takeWhile_append_of_pos h, List.dropWhile_append_of_pos h]
  cases behind with
  | nil => simp
  | cons c rest =>
    have hc : goes c = false := hends c (by simp)
    simp [hc]

/-- The marks that are tokens of their own or start operators. -/
def marks : List Char :=
  ['+', '-', '*', '/', '%', '^', '(', ')', '[', ']', ',', '=', '!', '<', '>', '&', '|']

/-- A mark that is a token of its own is one of them. -/
theorem mem_marks_of_symbol {c : Char} {token : Token} (h : ofSymbol? c = some token) :
    c ∈ marks := by
  unfold ofSymbol? at h
  split at h
  all_goals first
    | decide
    | cases h

/-- A mark that starts operators is one of them, but no token of its own, and there is an operator
of it and another mark. -/
theorem of_startsOperator {c : Char} (h : startsOperator c = true) :
    c ∈ marks ∧ ofSymbol? c = none ∧ (ofOperator? c true).isSome = true := by
  simp only [startsOperator, Bool.or_eq_true, beq_iff_eq, or_assoc] at h
  rcases h with rfl | rfl | rfl | rfl | rfl | rfl <;> decide

/-- Marks belong neither to a number nor to a word, and start no text. -/
theorem plain_of_mark {c : Char} (h : c ∈ marks) :
    inNumber c = false ∧ isQuote c = false ∧ startsName c = false ∧ inName c = false := by
  have hall : marks.all (fun c => !inNumber c && !isQuote c && !startsName c && !inName c) =
      true := by decide +kernel
  simpa [and_assoc] using List.all_eq_true.1 hall c h

/-- No character in front of the capital letters starts a word. -/
theorem startsName_of_lt {c : Char} (h : c.toNat < 65) : startsName c = false := by
  have hall : ∀ n < 65, startsName (Char.ofNat n) = false := by decide +kernel
  simpa using hall c.toNat h

/-- What is in a number starts neither a text nor a word. -/
theorem plain_of_inNumber {c : Char} (h : inNumber c = true) :
    isQuote c = false ∧ startsName c = false := by
  have hcode : 46 ≤ c.toNat ∧ c.toNat ≤ 57 := by
    rw [inNumber, Bool.or_eq_true, beq_iff_eq] at h
    rcases h with hdigit | rfl
    · have hbounds : 48 ≤ c.toNat ∧ c.toNat ≤ 57 := by
        simpa [Char.isDigit, UInt32.le_iff_toNat_le] using hdigit
      omega
    · decide
  refine ⟨?_, startsName_of_lt (by omega)⟩
  have hdouble : c ≠ '"' := by
    rintro rfl
    exact absurd hcode.1 (by decide)
  have hsingle : c.toNat ≠ 39 := by omega
  simp [isQuote, hdouble, hsingle]

/-- What starts a text starts no word. -/
theorem startsName_of_isQuote {c : Char} (h : isQuote c = true) : startsName c = false := by
  rw [isQuote, Bool.or_eq_true, beq_iff_eq, beq_iff_eq] at h
  rcases h with rfl | hcode
  · exact startsName_of_lt (by decide)
  · exact startsName_of_lt (by omega)

section Scan

variable {offset : Nat} {c d : Char} {rest after : List Char}

/-- A mark that is a token of its own is read as it. -/
theorem scan_of_symbol {token : Token} (h : ofSymbol? c = some token) :
    scan offset c rest = .ok ⟨token, [c], rest⟩ := by
  obtain ⟨hnumber, hquote, hname, -⟩ := plain_of_mark (mem_marks_of_symbol h)
  unfold isQuote at hquote
  simp [scan, hnumber, hquote, hname, h]

/-- A mark that the next one extends is read together with it. -/
theorem scan_of_extended {token : Token} (h : startsOperator c = true)
    (he : extendsOperator c d = true) (ht : ofOperator? c true = some token) :
    scan offset c (d :: after) = .ok ⟨token, [c, d], after⟩ := by
  obtain ⟨hmark, hsymbol, -⟩ := of_startsOperator h
  obtain ⟨hnumber, hquote, hname, -⟩ := plain_of_mark hmark
  unfold isQuote at hquote
  simp [scan, hnumber, hquote, hname, hsymbol, h, he, ht]

/-- A mark that nothing extends is read alone. -/
theorem scan_of_unextended (h : startsOperator c = true)
    (he : ∀ d ∈ rest.head?, extendsOperator c d = false) :
    scan offset c rest =
      match ofOperator? c false with
      | some token => .ok ⟨token, [c], rest⟩
      | none => .error (.unexpectedChar c offset) := by
  obtain ⟨hmark, hsymbol, -⟩ := of_startsOperator h
  obtain ⟨hnumber, hquote, hname, -⟩ := plain_of_mark hmark
  unfold isQuote at hquote
  cases rest with
  | nil =>
    cases hoperator : ofOperator? c false <;>
      simp [scan, hnumber, hquote, hname, hsymbol, h, hoperator]
  | cons d after =>
    have hd : extendsOperator c d = false := he d (by simp)
    cases hoperator : ofOperator? c false <;>
      simp [scan, hnumber, hquote, hname, hsymbol, h, hd, hoperator]

/-- Marks that are read together are read as one of the tokens with this sign. -/
theorem reads_of_scan_operator {lexeme : Lexeme} (ho : startsOperator c = true)
    (h : scan offset c rest = .ok lexeme) :
    c :: rest = lexeme.source ++ lexeme.rest ∧
      Reads lexeme.token lexeme.source lexeme.rest := by
  by_cases he : ∀ d ∈ rest.head?, extendsOperator c d = false
  · rw [scan_of_unextended ho he] at h
    split at h
    · rename_i token htoken
      cases h
      refine ⟨rfl, .sign (sign_single_iff.2 (.inr ⟨ho, htoken⟩)) fun d hd other hm => ?_⟩
      have hextends := (sign_pair_iff.1 hm).2.1
      rw [he d hd] at hextends
      cases hextends
    · cases h
  · obtain ⟨d, after, rfl, hextends⟩ : ∃ d after, rest = d :: after ∧
        extendsOperator c d = true := by
      cases rest with
      | nil => simp at he
      | cons d after => exact ⟨d, after, rfl, by simpa using he⟩
    obtain ⟨token, htoken⟩ := Option.isSome_iff_exists.1 (of_startsOperator ho).2.2
    rw [scan_of_extended ho hextends htoken] at h
    cases h
    refine ⟨rfl, .sign (sign_pair_iff.2 ⟨ho, hextends, htoken⟩) fun e _ other hm => ?_⟩
    rcases sign_cases hm with ⟨_, hlong⟩ | ⟨_, _, hlong⟩ <;> simp at hlong

/-- What is read from the front of a text is a token with all characters up to what is
left. -/
theorem reads_of_scan {lexeme : Lexeme} (h : scan offset c rest = .ok lexeme) :
    c :: rest = lexeme.source ++ lexeme.rest ∧
      Reads lexeme.token lexeme.source lexeme.rest := by
  by_cases ho : startsOperator c = true
  · exact reads_of_scan_operator ho h
  unfold scan at h
  split at h
  · rename_i hnumber
    dsimp only at h
    split at h
    · rename_i value hvalue
      cases h
      refine ⟨by simp, .number ?_ (ends_dropWhile inNumber rest) hvalue⟩
      exact List.forall_mem_cons.2 ⟨hnumber, fun d hd => List.mem_takeWhile_imp hd⟩
    · cases h
  · split at h
    · rename_i hquote
      dsimp only at h
      split at h
      · cases h
      · rename_i close behind hclose
        cases h
        have hmark := ends_dropWhile (· != c) rest close (by simp [hclose])
        obtain rfl : close = c := by simpa using hmark
        have hends : close ∉ rest.takeWhile (· != close) := fun hm => by
          simpa using List.mem_takeWhile_imp hm
        have hrest := List.takeWhile_append_dropWhile (p := (· != close)) (l := rest)
        rw [hclose] at hrest
        refine ⟨?_, .text hquote hends⟩
        simp [hrest]
    · split at h
      · rename_i hstarts
        cases h
        exact ⟨by simp, .word hstarts (fun d hd => List.mem_takeWhile_imp hd)
          (ends_dropWhile inName rest)⟩
      · split at h
        · rename_i token hsymbol
          cases h
          refine ⟨rfl, .sign (sign_single_iff.2 (.inl hsymbol)) fun d _ other hm => ?_⟩
          exact ho (sign_pair_iff.1 hm).1
        · cases h

/-- What makes a token is read from the front of a text. -/
theorem scan_of_reads {token : Token} {source behind : List Char}
    (h : Reads token source behind) : ∃ first more, source = first :: more ∧
      ∀ offset, scan offset first (more ++ behind) = .ok ⟨token, source, behind⟩ := by
  cases h with
  | @number value first more _ digits ends reads =>
    obtain ⟨hnumber, hmore⟩ := List.forall_mem_cons.1 digits
    obtain ⟨htake, hdrop⟩ := span_of_ends hmore ends
    refine ⟨first, more, rfl, fun offset => ?_⟩
    simp only [scan, hnumber, if_true, htake, hdrop, reads]
  | @text mark content _ quoted ends =>
    have hcontent : ∀ d ∈ content, (d != mark) = true := fun d hd =>
      bne_iff_ne.2 (ne_of_mem_of_not_mem hd ends)
    have hclose : ∀ d ∈ (mark :: behind).head?, (d != mark) = false := by simp
    obtain ⟨htake, hdrop⟩ := span_of_ends hcontent hclose
    have hnumber : inNumber mark = false := by
      by_contra hn
      rw [Bool.not_eq_false] at hn
      simp [(plain_of_inNumber hn).1] at quoted
    refine ⟨mark, content ++ [mark], rfl, fun offset => ?_⟩
    unfold isQuote at quoted
    simp [scan, hnumber, quoted, htake, hdrop]
  | @word first more _ starts letters ends =>
    obtain ⟨htake, hdrop⟩ := span_of_ends letters ends
    have hnumber : inNumber first = false := by
      by_contra hn
      rw [Bool.not_eq_false] at hn
      simp [(plain_of_inNumber hn).2] at starts
    have hquote : isQuote first = false := by
      by_contra hq
      rw [Bool.not_eq_false] at hq
      simp [startsName_of_isQuote hq] at starts
    refine ⟨first, more, rfl, fun offset => ?_⟩
    unfold isQuote at hquote
    simp only [scan, hnumber, hquote, starts, Bool.false_eq_true, if_false, if_true, htake, hdrop]
  | sign written ends =>
    rcases sign_cases written with ⟨c, rfl⟩ | ⟨c, d, rfl⟩
    · refine ⟨c, [], rfl, fun offset => ?_⟩
      rcases sign_single_iff.1 written with hsymbol | ⟨hstarts, hoperator⟩
      · exact scan_of_symbol hsymbol
      · have hunextended : ∀ d ∈ behind.head?, extendsOperator c d = false := by
          intro d hd
          by_contra he
          obtain ⟨token, htoken⟩ := Option.isSome_iff_exists.1 (of_startsOperator hstarts).2.2
          exact ends d hd token (sign_pair_iff.2 ⟨hstarts, by simpa using he, htoken⟩)
        rw [List.nil_append, scan_of_unextended hstarts hunextended, hoperator]
    · obtain ⟨hstarts, hextends, hoperator⟩ := sign_pair_iff.1 written
      refine ⟨c, [d], rfl, fun offset => ?_⟩
      rw [List.singleton_append, scan_of_extended hstarts hextends hoperator]

end Scan

/-- A stretch of a formula. -/
inductive Piece where
  /-- A blank between tokens. -/
  | blank (c : Char)
  /-- A token and the characters it is read from. -/
  | token (token : Token) (source : List Char)

namespace Piece

/-- The characters of a piece. -/
def source : Piece → List Char
  | .blank c => [c]
  | .token _ source => source

/-- The token of a piece. -/
def token? : Piece → Option Token
  | .blank _ => none
  | .token found _ => some found

end Piece

/-- The tokens of pieces in a row. -/
def tokensOf (pieces : List Piece) : List Token :=
  pieces.filterMap Piece.token?

/-- The characters of pieces in a row. -/
def sourceOf (pieces : List Piece) : List Char :=
  pieces.flatMap Piece.source

/-- A blank has no token. -/
@[simp] theorem tokensOf_blank (c : Char) (pieces : List Piece) :
    tokensOf (.blank c :: pieces) = tokensOf pieces := rfl

/-- Any other piece has one. -/
@[simp] theorem tokensOf_token (token : Token) (source : List Char) (pieces : List Piece) :
    tokensOf (.token token source :: pieces) = token :: tokensOf pieces := rfl

/-- The characters of the first piece come first. -/
@[simp] theorem sourceOf_cons (piece : Piece) (pieces : List Piece) :
    sourceOf (piece :: pieces) = piece.source ++ sourceOf pieces := rfl

/-- A text is cut from the left into pieces and what is left. -/
inductive Cut : List Char → List Piece → (rest : List Char) → Prop where
  /-- All is left. -/
  | done (rest : List Char) : Cut rest [] rest
  /-- A blank comes first. -/
  | blank {c : Char} {cs rest : List Char} {pieces : List Piece}
    (blank : Text.isBlank c = true) (more : Cut cs pieces rest) :
    Cut (c :: cs) (.blank c :: pieces) rest
  /-- A token comes first. -/
  | token {token : Token} {source behind rest : List Char} {pieces : List Piece}
    (reads : Reads token source behind)
    (visible : ∀ c ∈ source.head?, Text.isBlank c = false) (more : Cut behind pieces rest) :
    Cut (source ++ behind) (.token token source :: pieces) rest

variable {cs rest : List Char} {pieces : List Piece}

/-- The pieces and what is left make up the text. -/
theorem Cut.eq_append (h : Cut cs pieces rest) : cs = sourceOf pieces ++ rest := by
  induction h with
  | done => rfl
  | blank _ _ ih => simp [Piece.source, ih]
  | token _ _ _ ih => simp [Piece.source, ih]

/-- Every piece is a blank, or its token is read from it. -/
theorem Cut.mem_cases (h : Cut cs pieces rest) {piece : Piece} (hm : piece ∈ pieces) :
    (∃ c, piece = .blank c ∧ Text.isBlank c = true) ∨
      ∃ token source behind, piece = .token token source ∧ Reads token source behind := by
  induction h with
  | done => cases hm
  | blank hblank _ ih =>
    rcases List.mem_cons.1 hm with rfl | hm
    · exact .inl ⟨_, rfl, hblank⟩
    · exact ih hm
  | token reads _ _ ih =>
    rcases List.mem_cons.1 hm with rfl | hm
    · exact .inr ⟨_, _, _, rfl, reads⟩
    · exact ih hm

/-- The size of two stretches of characters is the sum of their sizes. -/
theorem byteSize_append (first second : List Char) :
    byteSize (first ++ second) = byteSize first + byteSize second := by
  have hstart (n : Nat) : second.foldl (fun n c => n + c.utf8Size) n = n + byteSize second := by
    unfold byteSize
    induction second generalizing n with
    | nil => rfl
    | cons c rest ih =>
      rw [List.foldl_cons, List.foldl_cons, ih, ih (0 + c.utf8Size)]
      omega
  rw [byteSize, List.foldl_append, hstart]
  rfl

/-- The tokens that are found are those of pieces that the text is cut into, and there are
not too many of them. -/
theorem cut_of_scanAll {fuel offset count : Nat} {tokens : List Token}
    (h : scanAll fuel offset count cs = .ok tokens) (hf : cs.length ≤ fuel) :
    (count ≤ limit → count + tokens.length ≤ limit) ∧
      ∃ pieces, Cut cs pieces [] ∧ tokensOf pieces = tokens := by
  induction fuel generalizing offset count cs tokens with
  | zero =>
    obtain rfl : cs = [] := List.eq_nil_of_length_eq_zero (Nat.le_zero.1 hf)
    cases h
    exact ⟨id, [], .done [], rfl⟩
  | succ fuel ih =>
    cases cs with
    | nil =>
      cases h
      exact ⟨id, [], .done [], rfl⟩
    | cons c rest =>
      have hlength : rest.length ≤ fuel := Nat.le_of_succ_le_succ hf
      unfold scanAll at h
      split at h
      · rename_i hblank
        obtain ⟨hcount, pieces, hcut, htokens⟩ := ih h hlength
        exact ⟨hcount, .blank c :: pieces, .blank hblank hcut, htokens⟩
      · rename_i hvisible
        cases hscan : scan offset c rest with
        | error error => simp [hscan, bind, Except.bind] at h
        | ok lexeme =>
          obtain ⟨hsplit, hreads⟩ := reads_of_scan hscan
          simp only [hscan, bind, Except.bind] at h
          split at h
          · cases h
          · rename_i hroom
            cases hrest : scanAll fuel (offset + byteSize lexeme.source) (count + 1)
                lexeme.rest with
            | error error => simp [hrest] at h
            | ok more =>
              obtain rfl : lexeme.token :: more = tokens := by simpa [hrest] using h
              obtain ⟨first, left, hfirst, -⟩ := scan_of_reads hreads
              rw [hfirst, List.cons_append] at hsplit
              obtain ⟨rfl, rfl⟩ := List.cons.inj hsplit
              rw [List.length_append] at hlength
              obtain ⟨hcount, pieces, hcut, htokens⟩ := ih hrest (by omega)
              refine ⟨fun _ => ?_, .token lexeme.token lexeme.source :: pieces, ?_, ?_⟩
              · rw [List.length_cons]
                omega
              · rw [← List.cons_append, ← hfirst]
                exact .token hreads (by simpa [hfirst] using hvisible) hcut
              · rw [tokensOf_token, htokens]

/-- A text that starts with pieces is scanned by going on behind them. -/
theorem Cut.scanAll_eq (h : Cut cs pieces rest) (fuel offset count : Nat)
    (hf : cs.length ≤ fuel) (hc : count + (tokensOf pieces).length ≤ limit) :
    ∃ left, rest.length ≤ left ∧ scanAll fuel offset count cs =
      (scanAll left (offset + byteSize (sourceOf pieces)) (count + (tokensOf pieces).length)
        rest).map (tokensOf pieces ++ ·) := by
  induction h generalizing fuel offset count with
  | done rest =>
    refine ⟨fuel, hf, ?_⟩
    cases hscan : scanAll fuel offset count rest <;>
      simp [sourceOf, tokensOf, byteSize, Except.map, hscan]
  | @blank c cs rest pieces hblank more ih =>
    obtain ⟨fuel, rfl⟩ := Nat.exists_eq_add_one_of_ne_zero (Nat.ne_of_gt (Nat.zero_lt_of_lt hf))
    obtain ⟨left, hleft, hscan⟩ := ih fuel (offset + c.utf8Size) count
      (Nat.le_of_succ_le_succ hf) hc
    refine ⟨left, hleft, ?_⟩
    have hsize : byteSize [c] = c.utf8Size := by simp [byteSize]
    rw [scanAll, if_pos hblank, hscan, sourceOf_cons, byteSize_append, Piece.source, hsize,
      Nat.add_assoc, tokensOf_blank]
  | @token token source behind rest pieces reads visible more ih =>
    obtain ⟨first, tail, rfl, hfirst⟩ := scan_of_reads reads
    have hvisible : Text.isBlank first = false := visible first (by simp)
    rw [List.length_append, List.length_cons] at hf
    rw [tokensOf_token, List.length_cons] at hc
    obtain ⟨fuel, rfl⟩ := Nat.exists_eq_add_one_of_ne_zero (show fuel ≠ 0 by omega)
    obtain ⟨left, hleft, hscan⟩ := ih fuel (offset + byteSize (first :: tail)) (count + 1)
      (by omega) (by omega)
    refine ⟨left, hleft, ?_⟩
    have hroom : ¬ limit ≤ count := by omega
    have hcount : count + 1 + (tokensOf pieces).length =
        count + (tokensOf (.token token (first :: tail) :: pieces)).length := by
      rw [tokensOf_token, List.length_cons]
      omega
    rw [List.cons_append, scanAll, if_neg (by simp [hvisible]), hfirst]
    simp only [bind, Except.bind, if_neg hroom]
    rw [hscan, sourceOf_cons, byteSize_append, Piece.source, ← Nat.add_assoc, hcount]
    cases scanAll left _ _ rest <;> rfl

/-- Scanning gives the tokens of the pieces that a formula is cut into, and fails if there
are too many or the formula cannot be cut up to its end. -/
theorem tokenize_eq_ok_iff {formula : String} {tokens : List Token} :
    tokenize formula = .ok tokens ↔ tokens.length ≤ limit ∧
      ∃ pieces, Cut formula.toList pieces [] ∧ tokensOf pieces = tokens := by
  constructor
  · intro h
    obtain ⟨hcount, hpieces⟩ := cut_of_scanAll h (Nat.le_refl _)
    exact ⟨by simpa using hcount (Nat.zero_le _), hpieces⟩
  · rintro ⟨hlimit, pieces, hcut, rfl⟩
    obtain ⟨left, -, hscan⟩ := hcut.scanAll_eq _ 0 0 (Nat.le_refl _)
      (by rwa [Nat.zero_add])
    have hend (offset count : Nat) : scanAll left offset count [] = .ok [] := by
      cases left <;> rfl
    rw [tokenize, hscan, hend]
    simp [Except.map]

/-- A formula that is cut up to a place where nothing can be read fails there. -/
theorem tokenize_of_stuck {formula : String} {pieces : List Piece} {c : Char}
    {behind : List Char} {error : FormulaError} (h : Cut formula.toList pieces (c :: behind))
    (hl : (tokensOf pieces).length ≤ limit) (hc : Text.isBlank c = false)
    (hs : scan (byteSize (sourceOf pieces)) c behind = .error error) :
    tokenize formula = .error error := by
  obtain ⟨left, hleft, hscan⟩ := h.scanAll_eq _ 0 0 (Nat.le_refl _) (by rwa [Nat.zero_add])
  obtain ⟨left, rfl⟩ := Nat.exists_eq_add_one_of_ne_zero
    (Nat.ne_of_gt (Nat.zero_lt_of_lt hleft))
  rw [tokenize, hscan, scanAll, if_neg (by simp [hc]), Nat.zero_add, hs]
  rfl

/-- A mark that only makes an operator together with another one cannot be read without
it. -/
theorem scan_of_lone {c : Char} (hc : c = '&' ∨ c = '|') {behind : List Char}
    (hd : ∀ d ∈ behind.head?, d ≠ c ∧ d ≠ '=') (offset : Nat) :
    scan offset c behind = .error (.unexpectedChar c offset) := by
  have hstarts : startsOperator c = true := by rcases hc with rfl | rfl <;> rfl
  have halone : ∀ d ∈ behind.head?, extendsOperator c d = false := fun d hm => by
    simp [extendsOperator, hd d hm]
  rw [scan_of_unextended hstarts halone]
  rcases hc with rfl | rfl <;> rfl

/-- An operator is written in one of its spellings, or as a mark of a logical operator with
an equals sign behind it. -/
theorem Reads.spelled {token : Token} {source behind : List Char}
    (h : Reads token source behind) (ho : spellings token ≠ []) :
    String.ofList source ∈ spellings token ∨
      token = .op .and ∧ source = ['&', '='] ∨ token = .op .or ∧ source = ['|', '='] := by
  cases h with
  | number | text => exact absurd rfl ho
  | @word first more _ _ _ _ =>
    left
    revert ho
    generalize String.ofList (first :: more) = word
    unfold ofWord
    split <;> simp [spellings]
  | sign written _ =>
    have hall : ∀ sign ∈ signs, spellings sign.2 ≠ [] → String.ofList sign.1 ∈ spellings sign.2 ∨
        sign.2 = .op .and ∧ sign.1 = ['&', '='] ∨ sign.2 = .op .or ∧ sign.1 = ['|', '='] := by
      decide
    exact hall _ written ho

/-- The marks of logical operators are read in texts and in these operators only. -/
theorem Reads.marked {token : Token} {source behind : List Char}
    (h : Reads token source behind) {c : Char} (hm : c ∈ source) (hc : c = '&' ∨ c = '|') :
    (∃ content, token = .text content) ∨ token = .op .and ∨ token = .op .or := by
  have hmark : c ∈ marks := by rcases hc with rfl | rfl <;> decide
  obtain ⟨hnumber, -, hfirst, hname⟩ := plain_of_mark hmark
  cases h with
  | number digits => simp [digits c hm] at hnumber
  | text => exact .inl ⟨_, rfl⟩
  | word starts letters =>
    rcases List.mem_cons.1 hm with rfl | hm
    · simp [starts] at hfirst
    · simp [letters c hm] at hname
  | sign written _ =>
    have hall : ∀ sign ∈ signs, '&' ∈ sign.1 ∨ '|' ∈ sign.1 →
        sign.2 = .op .and ∨ sign.2 = .op .or := by decide
    refine .inr (hall _ written ?_)
    rcases hc with rfl | rfl
    · exact .inl hm
    · exact .inr hm

/-- The operator of a piece, if it has one, is written as it is documented to be. -/
def Piece.Documented (piece : Piece) : Prop :=
  ∀ token, piece.token? = some token → spellings token ≠ [] →
    String.ofList piece.source ∈ spellings token

/-- Scanning cuts every formula into the longest pieces, from the left. Wherever it gets,
operators are written in their documented spellings, except that `&=` and `|=` are read as
the logical operators too, and the marks of these two stand in no other pieces than texts
and these operators. Where one of the marks is left over, scanning fails there. -/
theorem operators_spelled (formula : String) :
    (∀ tokens, tokenize formula = .ok tokens ↔ tokens.length ≤ limit ∧
        ∃ pieces, Cut formula.toList pieces [] ∧ tokensOf pieces = tokens) ∧
      (∀ pieces rest, Cut formula.toList pieces rest → ∀ piece ∈ pieces,
        (piece.Documented ∨ piece = .token (.op .and) ['&', '='] ∨
          piece = .token (.op .or) ['|', '=']) ∧
        ∀ c ∈ piece.source, c = '&' ∨ c = '|' → ∃ token, piece.token? = some token ∧
          ((∃ content, token = .text content) ∨ token = .op .and ∨ token = .op .or)) ∧
      (∀ pieces c behind, Cut formula.toList pieces (c :: behind) →
        (tokensOf pieces).length ≤ limit → c = '&' ∨ c = '|' →
        (∀ d ∈ behind.head?, d ≠ c ∧ d ≠ '=') →
        tokenize formula = .error (.unexpectedChar c (byteSize (sourceOf pieces)))) := by
  refine ⟨fun tokens => tokenize_eq_ok_iff, fun pieces rest hcut piece hm => ?_,
    fun pieces c behind hcut hlimit hc hd => ?_⟩
  · rcases hcut.mem_cases hm with ⟨c, rfl, hblank⟩ | ⟨token, source, behind, rfl, hreads⟩
    · refine ⟨.inl fun token ht => (by cases ht), fun d hd hmark => ?_⟩
      obtain rfl : d = c := by simpa [Piece.source] using hd
      rcases hmark with rfl | rfl <;> cases hblank
    · refine ⟨?_, fun c hc hmark => ⟨token, rfl, hreads.marked hc hmark⟩⟩
      by_cases ho : spellings token = []
      · refine .inl fun other ht hother => ?_
        cases ht
        exact absurd ho hother
      · refine (hreads.spelled ho).imp (fun hspelled other ht _ => ?_)
          (.imp (fun hand => by rw [hand.1, hand.2]) fun hor => by rw [hor.1, hor.2])
        cases ht
        exact hspelled
  · have hvisible : Text.isBlank c = false := by rcases hc with rfl | rfl <;> rfl
    exact tokenize_of_stuck hcut hlimit hvisible (scan_of_lone hc hd _)

/-- A single mark between two names is found after the first one. -/
theorem operators_spelled_single :
    Cut "a&b".toList [.token (.name "a") ['a']] ['&', 'b'] ∧
      tokenize "a&b" = .error (.unexpectedChar '&' 1) := by
  have hcut : Cut "a&b".toList [.token (.name "a") ['a']] ['&', 'b'] := by
    have hends : inName '&' = false := (plain_of_mark (by decide)).2.2.2
    have hword : Reads (ofWord (String.ofList ['a'])) ['a'] ['&', 'b'] :=
      .word (by decide +kernel) (by simp) (by simpa using hends)
    have hname : ofWord (String.ofList ['a']) = .name "a" := by decide
    have hvisible : Text.isBlank 'a' = false := by decide
    exact .token (hname ▸ hword) (by simpa using hvisible) (.done _)
  exact ⟨hcut, (operators_spelled "a&b").2.2 _ '&' ['b'] hcut (by decide) (.inl rfl) (by simp)⟩

/-- A logical operator is read from a mark and an equals sign. -/
theorem ampersand_equals_conjoins :
    tokenize "true &= false" = .ok [.bool true, .op .and, .bool false] ∧
      ¬ ∃ pieces, Cut "true &= false".toList pieces [] ∧
        tokensOf pieces = [.bool true, .op .and, .bool false] ∧
        ∀ piece ∈ pieces, piece.Documented := by
  refine ⟨by decide +kernel, ?_⟩
  rintro ⟨pieces, hcut, htokens, hall⟩
  have hm : Token.op .and ∈ tokensOf pieces := by simp [htokens]
  obtain ⟨piece, hpiece, htoken⟩ := List.mem_filterMap.1 hm
  have hsource : piece.source.Sublist "true &= false".toList := by
    rw [hcut.eq_append, List.append_nil]
    exact List.sublist_flatten_of_mem (List.mem_map_of_mem hpiece)
  have habsent : ∀ spelling ∈ spellings (.op .and),
      ¬ spelling.toList.Sublist "true &= false".toList := by decide
  refine habsent _ (hall piece hpiece _ htoken (by decide)) ?_
  rwa [String.toList_ofList]

end GridScript.Token
