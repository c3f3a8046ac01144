import MessageService.Lib.HeaderList

/-!
# Address lists

The address list of RFC 5322 as `email._header_value_parser.get_address_list` reads it, down to
which of its commas are at top level: not those in a quoted string, in a comment (comments nest), in
a domain literal or in a group. Text that is no address is not rejected: it goes on to the next
comma, as the parser's invalid mailboxes do.

Three constructs reach over blanks, and are not read as they stand: an encoded word of RFC 2047 is
decoded and read again, an obsolete route is dropped, and a domain literal may go on behind a blank.
`rewrites` finds them; `addressList` takes them for plain text.
-/

namespace MessageService.Lib

/-- The double quote. -/
def dquote : Char := Char.ofNat 34

/-- The backslash. -/
def backslash : Char := Char.ofNat 92

/-- What the reader is inside of; `escaped` is behind a backslash. -/
inductive Nesting where
  | plain
  | quoted (escaped : Bool)
  /-- In a comment, with `depth` comments around it. -/
  | comment (depth : Nat) (escaped : Bool)
  | literal (escaped : Bool)
  deriving DecidableEq, Repr

/-- The reader passes a character inside a construct. -/
def Nesting.next : Nesting → Char → Nesting
  | plain, _ => plain
  | quoted true, _ => quoted false
  | quoted false, c => if c = dquote then plain else quoted (c = backslash)
  | comment depth true, _ => comment depth false
  | comment depth false, c =>
    if c = '(' then comment (depth + 1) false
    else if c = ')' then
      match depth with
      | 0 => plain
      | depth + 1 => comment depth false
    else comment depth (c = backslash)
  | literal true, _ => literal false
  | literal false, c => if c = ']' then plain else literal (c = backslash)

/-- How far the current mailbox is read. -/
inductive MailboxPart where
  /-- Nothing of it but comments. -/
  | fresh
  /-- A display name or a local part. -/
  | phrase
  /-- Nothing of it behind an angle bracket. -/
  | angle
  /-- A local part, and no display name of a group. -/
  | localPart
  /-- Nothing of the domain. -/
  | domain
  | rest
  deriving DecidableEq, Repr

/-- The state of the reader. -/
structure AddressState where
  nesting : Nesting := .plain
  part : MailboxPart := .fresh
  inGroup : Bool := false
  deriving DecidableEq, Repr

/-- A domain literal that starts here is closed before a blank or another bracket. -/
def literalCloses (escaped : Bool) : List Char → Bool
  | [] => false
  | c :: cs =>
    if c = ' ' then false
    else if escaped then literalCloses false cs
    else if c = ']' then true
    else if c = '[' then false
    else literalCloses (c = backslash) cs

/-- The part after a character of a word. -/
def MailboxPart.word : MailboxPart → MailboxPart
  | fresh | phrase => phrase
  | angle | localPart => localPart
  | domain | rest => rest

/-- The reader passes a character at top level or in a group. -/
def AddressState.nextPlain (s : AddressState) (c : Char) (cs : List Char) : AddressState :=
  if c = dquote then { s with nesting := .quoted false, part := s.part.word }
  else if c = '(' then { s with nesting := .comment 0 false }
  else if c = ',' then { s with part := .fresh }
  else if c = ':' then
    if s.inGroup = false ∧ (s.part = .fresh ∨ s.part = .phrase) then
      { s with part := .fresh, inGroup := true }
    else { s with part := .rest }
  else if c = ';' then { s with part := .rest, inGroup := false }
  else if c = '@' then
    { s with part := if s.part = .phrase ∨ s.part = .localPart then .domain else .rest }
  else if c = '[' then
    if s.part = .domain ∧ literalCloses false cs = true then
      { s with nesting := .literal false, part := .rest }
    else { s with part := .rest }
  else if c = '<' then
    { s with part := if s.part = .fresh ∨ s.part = .phrase then .angle else .rest }
  else if c = backslash then
    { s with part := if s.part = .domain ∨ s.part = .rest then .rest else .localPart }
  else if c = ')' ∨ c = '>' ∨ c = ']' then { s with part := .rest }
  else if c = ' ' then s
  else { s with part := s.part.word }

/-- The reader passes a character. -/
def AddressState.next (s : AddressState) (c : Char) (cs : List Char) : AddressState :=
  match s.nesting with
  | .plain => s.nextPlain c cs
  | nesting => { s with nesting := nesting.next c }

/-- A comma separates here. -/
def AddressState.separates (s : AddressState) : Bool := s.nesting = .plain && !s.inGroup

theorem literalCloses_near {escaped : Bool} {cs : List Char} (ds : List Char) (h : ' ' ∉ cs) :
    literalCloses escaped (cs ++ ',' :: ' ' :: ds) = literalCloses escaped cs := by
  induction cs generalizing escaped with
  | nil => cases escaped <;> rfl
  | cons c cs ih =>
    have ⟨hc, hcs⟩ : ' ' ≠ c ∧ ' ' ∉ cs := by simpa using h
    simp only [List.cons_append, literalCloses, ih hcs]

theorem Nesting.next_ne_plain {n : Nesting} (hn : n ≠ .plain) {c : Char}
    (hc : c = ',' ∨ c = ' ') : n.next c ≠ .plain := by
  cases n with
  | plain => exact absurd rfl hn
  | quoted escaped => rcases hc with rfl | rfl <;> cases escaped <;> decide
  | comment depth escaped => rcases hc with rfl | rfl <;> cases escaped <;> simp [Nesting.next]
  | literal escaped => rcases hc with rfl | rfl <;> cases escaped <;> decide

/-- Neither a comma nor a blank ends what the reader is in. -/
theorem AddressState.separates_next {s : AddressState} (hs : s.separates = false) {c : Char}
    (hc : c = ',' ∨ c = ' ') (cs : List Char) : (s.next c cs).separates = false := by
  obtain ⟨nesting, part, inGroup⟩ := s
  by_cases hn : nesting = .plain
  · subst hn
    obtain rfl : inGroup = true := by simpa [separates] using hs
    rcases hc with rfl | rfl <;> rfl
  · have hnext : (next ⟨nesting, part, inGroup⟩ c cs).nesting = nesting.next c := by
      unfold next
      cases nesting with
      | plain => exact absurd rfl hn
      | quoted _ | comment _ _ | literal _ => rfl
    unfold separates
    rw [hnext, decide_eq_false (Nesting.next_ne_plain hn hc), Bool.false_and]

/-- What follows a character counts as far as the next blank only. -/
theorem AddressState.next_near (s : AddressState) (c : Char) {cs : List Char} (ds : List Char)
    (h : ' ' ∉ cs) : s.next c (cs ++ ',' :: ' ' :: ds) = s.next c cs := by
  unfold next nextPlain
  rw [literalCloses_near ds h]

/-- The reader of an address list. -/
def addressList : ListReader AddressState where
  start := {}
  separates := AddressState.separates
  next := AddressState.next
  next_blank _ := rfl
  nested_comma cs hs := AddressState.separates_next hs (.inl rfl) cs
  nested_blank cs hs := AddressState.separates_next hs (.inr rfl) cs
  near s c _ ds h := s.next_near c ds h

/-! ## What is not read as it stands -/

/-- `value.split("?=", 1)`, where there is something to split. -/
def splitWordEnd : List Char → Option (List Char × List Char)
  | [] => none
  | c :: cs =>
    if c = '?' ∧ cs.head? = some '=' then some ([], cs.tail)
    else (splitWordEnd cs).map fun r => (c :: r.1, r.2)

/-- Charset, encoding and text of an encoded word, between its marks. -/
def isWordBody (body : List Char) : Bool :=
  match body.dropWhile (· != '?') with
  | _ :: encoding :: mark :: text =>
    ['q', 'Q', 'b', 'B'].contains encoding && mark = '?' &&
      text.all fun c => c != '?' && c.val < 128
  | _ => false

/-- A digit of `string.hexdigits`. -/
def isHexDigit (c : Char) : Bool :=
  c.isDigit || ('a' ≤ c && c ≤ 'f') || ('A' ≤ c && c ≤ 'F')

/-- `get_encoded_word` succeeds: an encoded word begins here, whatever its charset. -/
def encodedWord : List Char → Bool
  | '=' :: '?' :: cs =>
    match splitWordEnd cs with
    | none => false
    | some (body, rest) =>
      -- the mark may be that of the encoding, with an escaped byte behind it
      if 2 ≤ (rest.takeWhile isHexDigit).length ∧ body.count '?' < 2 then
        isWordBody (body ++ '?' :: '=' :: ((splitWordEnd rest).map Prod.fst).getD rest)
      else isWordBody body
  | _ => false

/-- A domain literal that starts here goes on behind a blank, to its end. -/
def literalResumes (escaped : Bool) : List Char → Bool
  | [] => false
  | c :: cs =>
    if c = ' ' then (cs.dropWhile (· = ' ')).head? = some ']'
    else if escaped then literalResumes false cs
    else if c = ']' ∨ c = '[' then false
    else literalResumes (c = backslash) cs

/-- The reader looks for encoded words. -/
def AddressState.readsWords (s : AddressState) : Bool :=
  match s.nesting with
  | .plain | .quoted _ => true
  | .comment _ _ | .literal _ => false

/-- A word may begin behind the character, in a quoted string also once it is unquoted. -/
def AddressState.beginsWord (s : AddressState) (c : Char) : Bool :=
  match s.nesting with
  | .quoted _ => [dquote, ' ', backslash].contains c
  | _ => [' ', ':', backslash, '@', '<', '>', '[', ';', ']', ',', '(', ')', '.', dquote].contains c

/-- Behind the character there is an angle bracket, and but commas, blanks and comments since. -/
def AddressState.opensAngle (s : AddressState) (angle : Bool) (c : Char) : Bool :=
  if s.nesting ≠ .plain then angle
  else c = '<' || (angle && [',', ' ', '('].contains c)

/-- What is read of a text is not all as it stands, in a state in which a word may begin and which
is behind an angle bracket. -/
def AddressState.rewrites : AddressState → Bool → Bool → List Char → Bool
  | _, _, _, [] => false
  | s, word, angle, c :: cs =>
    (word && s.readsWords && encodedWord (c :: cs)) ||
      (s.nesting = .plain && angle && c = '@' && cs.contains ':') ||
      (s.nesting = .plain && s.part = .domain && c = '[' && literalResumes false cs) ||
      rewrites (if s.separates ∧ c = ',' then {} else s.next c cs) (s.beginsWord c)
        (s.opensAngle angle c) cs

end MessageService.Lib
