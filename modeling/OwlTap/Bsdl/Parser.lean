import OwlTap.Bsdl.Lexer

/-!
# The BSDL parser

The parser reads tokens from the front of a list; past the end it reads END_OF_FILE. A
result of `none` is an exception that `std::stoi` throws out of the parser, or a shift
by more than 31 bits, which has no meaning. Loops carry fuel; each pass consumes a
token or a character, so that there is always enough.
-/

namespace OwlTap.Bsdl

namespace BSDLParser

/-- Upper bound on the bit count of the boundary register. -/
def kMaxBsrBits : ℕ := 65536

/-! ### Tokens -/

/-- The next token, and the tokens after it. -/
def next : List Token → Token × List Token
  | [] => (⟨.endOfFile, []⟩, [])
  | t :: ts => (t, ts)

/-- The type of the next token. -/
def peek (ts : List Token) : TokenType := (next ts).1.type

/-- Skip past the next semicolon. -/
def skipToSemicolon : List Token → List Token
  | [] => []
  | t :: ts => if t.type = .semicolon then ts else skipToSemicolon ts

/-- Read the string literals that come next, joined by ampersands. -/
def readConcatenatedString (ts : List Token) : Text × List Token :=
  if peek ts = .stringLiteral then go [] ts else ([], ts)
where
  /-- The loop. -/
  go (result : Text) : List Token → Text × List Token
    | [] => (result, [])
    | t :: ts =>
      if t.type = .stringLiteral then go (result ++ t.value) ts
      else if t.type = .ampersand then go result ts
      else (result, t :: ts)

/-! ### Numbers in the text -/

/-- `std::isspace`. -/
def isSpace (c : Char) : Bool := c = ' ' ∨ ('\t' ≤ c ∧ c ≤ '\r')

/-- The value of a string of digits. -/
def digits (s : Text) : ℕ := s.foldl (fun n c => 10 * n + (c.toNat - '0'.toNat)) 0

/-- `std::stoi`: whitespace, a sign, and digits; what follows them is ignored. -/
def stoi (s : Text) : Option ℤ :=
  let s := s.dropWhile isSpace
  let negative := s.head? = some '-'
  let ds := (if negative ∨ s.head? = some '+' then s.tail else s).takeWhile Char.isDigit
  let n : ℤ := if negative then -(digits ds) else digits ds
  if ds ≠ [] ∧ -2147483648 ≤ n ∧ n ≤ 2147483647 then some n else none

/-- The separators between the entries of a string. -/
def isSeparator (c : Char) : Bool := c = ' ' ∨ c = '\t' ∨ c = '\n' ∨ c = '\r' ∨ c = ','

/-- The value of a string of binary digits, most significant first. -/
def binary : Text → Option (BitVec 32)
  | [] => some 0
  | b :: bs =>
    (binary bs).bind fun opcode =>
      if b = '1' then
        if bs.length < 32 then some (opcode ||| 1#32 <<< bs.length) else none
      else some opcode

/-! ### The entity and its ports -/

/-- The entity's name; the header is skipped. -/
def parseEntity (ts : List Token) (dev : BSDLDevice) : List Token × BSDLDevice :=
  let (name, ts) := next ts
  (skipToSemicolon ts, if name.type = .identifier then { dev with entityName := name.value } else dev)

/-- The tokens of an index up to its closing parenthesis, run together. -/
def readIndex : List Token → Text × List Token
  | [] => ([], [])
  | t :: ts => if t.type = .rparen then ([], ts) else (t.value ++ (readIndex ts).1, (readIndex ts).2)

/-- A port name that may have an index. -/
def readName (name : Text) (ts : List Token) : Text × List Token :=
  if peek ts = .lparen then
    let (index, ts) := readIndex (next ts).2
    (name ++ ['('] ++ index ++ [')'], ts)
  else (name, ts)

/-- The rest of a comma-separated list of port names. -/
def readNames : (fuel : ℕ) → List Token → List Text × List Token
  | 0, ts => ([], ts)
  | fuel + 1, ts =>
    if peek ts = .comma then
      let (tok, ts) := next (next ts).2
      if tok.type = .identifier then
        let (name, ts) := readName tok.value ts
        let (names, ts) := readNames fuel ts
        (name :: names, ts)
      else readNames fuel ts
    else ([], ts)

/-- A port's mode; anything else counts as `in`. -/
def direction (tok : Token) : PinDirection :=
  if tok.type = .identifier then
    if tok.value = "OUT".toList then .out
    else if tok.value = "INOUT".toList then .inout
    else if tok.value = "BUFFER".toList then .buffer
    else if tok.value = "LINKAGE".toList then .linkage
    else .in
  else .in

/-- Skip a type declaration to the terminating `;` or the `)` of the port list; the type of the
token that ended it. -/
def skipType : (depth : ℕ) → List Token → TokenType × List Token
  | _, [] => (.endOfFile, [])
  | depth, t :: ts =>
    match t.type with
    | .lparen => skipType (depth + 1) ts
    | .rparen => if 0 < depth then skipType (depth - 1) ts else (.rparen, ts)
    | .semicolon => if depth = 0 then (.semicolon, ts) else skipType depth ts
    | _ => skipType depth ts

/-- Create the pin entries of a list of names. -/
def addPins (dir : PinDirection) (names : List Text) (dev : BSDLDevice) : BSDLDevice :=
  { dev with pins := names.foldl (fun pins n => pins.insert n { name := n, direction := dir }) dev.pins }

/-- The port list after its opening parenthesis. -/
def portList : (fuel : ℕ) → List Token → BSDLDevice → List Token × BSDLDevice
  | 0, ts, dev => (ts, dev)
  | fuel + 1, ts, dev =>
    let (tok, ts) := next ts
    if tok.type = .rparen ∨ tok.type = .endOfFile then (ts, dev)
    else if tok.type = .identifier then
      let (pinName, ts) := readName tok.value ts
      let (extra, ts) := readNames ts.length ts
      let (tok, ts) := next ts
      if tok.type ≠ .colon then portList fuel ts dev
      else
        let (tok, ts) := next ts
        let dev := addPins (direction tok) (pinName :: extra) dev
        let (closing, ts) := skipType 0 ts
        if closing = .rparen then (ts, dev) else portList fuel ts dev
    else portList fuel ts dev

/-- Parse a port list: `port ( name : direction type ; ... );`. -/
def parsePorts (ts : List Token) (dev : BSDLDevice) : List Token × BSDLDevice :=
  let (tok, ts) := next ts
  if tok.type ≠ .lparen then (ts, dev)
  else
    let (ts, dev) := portList (ts.length + 1) ts dev
    (if peek ts = .semicolon then (next ts).2 else ts, dev)

/-! ### Attributes -/

/-- `attribute INSTRUCTION_LENGTH`. -/
def parseInstructionLength (ts : List Token) (dev : BSDLDevice) : Option (List Token × BSDLDevice) :=
  let (tok, ts) := next ts
  if tok.type = .integer then
    (stoi tok.value).map fun n => (skipToSemicolon ts, { dev with instructionLength := n.toNat })
  else some (skipToSemicolon ts, dev)

/-- The entries `NAME (binary), ...` of an opcode string. -/
def opcodes : (fuel : ℕ) → Text → BSDLDevice → Option BSDLDevice
  | 0, _, dev => some dev
  | fuel + 1, content, dev =>
    let content := content.dropWhile isSeparator
    let stops := fun c => c = ' ' ∨ c = '\t' ∨ c = '('
    let name := (content.takeWhile fun c => ¬stops c).map Char.toUpper
    let content := (content.dropWhile fun c => ¬stops c).dropWhile (· ≠ '(')
    if name = [] ∨ content = [] then some dev
    else
      let code := (content.tail.takeWhile (· ≠ ')')).filter fun c => c = '0' ∨ c = '1'
      let content := (content.tail.dropWhile (· ≠ ')')).tail
      if code = [] then opcodes fuel content dev
      else
        (binary code).bind fun opcode =>
          opcodes fuel content { dev with instructions := dev.instructions.insert name opcode }

/-- `attribute INSTRUCTION_OPCODE`. -/
def parseInstructionOpcode (ts : List Token) (dev : BSDLDevice) : Option (List Token × BSDLDevice) :=
  let (content, ts) := readConcatenatedString ts
  (opcodes content.length content dev).map fun dev => (skipToSemicolon ts, dev)

/-- `std::vector::resize` of the cells. -/
def resizeCells (cells : List BoundaryCell) (n : ℕ) : List BoundaryCell :=
  cells.take n ++ List.replicate (n - cells.length) ({} : BoundaryCell)

/-- `attribute BOUNDARY_LENGTH`. -/
def parseBoundaryLength (ts : List Token) (dev : BSDLDevice) : List Token × BSDLDevice :=
  let (tok, ts) := next ts
  let len := ((stoi tok.value).getD 0).toNat
  (skipToSemicolon ts,
    if tok.type = .integer ∧ 0 < len ∧ len ≤ kMaxBsrBits then
      { dev with boundaryLength := len, boundaryCells := resizeCells dev.boundaryCells len }
    else dev)

/-- Parse the function of a cell. -/
def parseCellFunction (name : Text) : CellFunction :=
  if name = "OUTPUT2".toList then .output2
  else if name = "OUTPUT3".toList then .output3
  else if name = "CONTROL".toList then .control
  else if name = "BIDIR".toList then .bidir
  else if name = "CLOCK".toList then .clock
  else if name = "INTERNAL".toList then .internal
  else .input

/-- Parse the disable result of a cell. -/
def parseDisableResult (name : Text) : DisableResult :=
  if name = "PULL0".toList then .pull0
  else if name = "PULL1".toList then .pull1
  else if name = "HIGHZ".toList ∨ name = "Z".toList then .highZ
  else if name = "KEEPER".toList then .keeper
  else .none

/-- A field of a cell, up to a comma, which is skipped, or a closing parenthesis. -/
def readField (content : Text) : Text × Text :=
  let stops := fun c => c = ',' ∨ c = ')'
  let field := ((content.takeWhile fun c => ¬stops c).filter fun c =>
    ¬(c = ' ' ∨ c = '\t' ∨ c = '\n' ∨ c = '\r')).map Char.toUpper
  let content := content.dropWhile fun c => ¬stops c
  (field, if content.head? = some ',' then content.tail else content)

/-- An optional field of a cell. -/
def readOptional (content : Text) : Text × Text :=
  if content ≠ [] ∧ content.head? ≠ some ')' then readField content else ([], content)

/-- Store a cell at its position; the register grows with it, up to the limit. -/
def storeCell (cell : BoundaryCell) (pos : ℕ) (dev : BSDLDevice) : BSDLDevice :=
  if pos < dev.boundaryCells.length then
    { dev with boundaryCells := dev.boundaryCells.set pos cell }
  else if pos < kMaxBsrBits then
    { dev with boundaryCells := (resizeCells dev.boundaryCells (pos + 1)).set pos cell, boundaryLength := pos + 1 }
  else dev

/-- The entries `pos (type, pin, function, safe [, control, value, result]), ...`. -/
def cells : (fuel : ℕ) → Text → BSDLDevice → Option BSDLDevice
  | 0, _, dev => some dev
  | fuel + 1, content, dev =>
    let content := content.dropWhile isSeparator
    if content = [] then some dev
    else
      let posStr := content.takeWhile Char.isDigit
      if posStr = [] then cells fuel content.tail dev
      else
        (stoi posStr).bind fun cellPos =>
          let content := (content.dropWhile Char.isDigit).dropWhile (· ≠ '(')
          if content = [] then some dev
          else
            let (cellType, content) := readField content.tail
            let (pinName, content) := readField content
            let (function, content) := readField content
            let (safe, content) := readField content
            let (disabledBy, content) := readOptional content
            let (disableVal, content) := readOptional content
            let (disableResult, content) := readOptional content
            let content := (content.dropWhile (· ≠ ')')).tail
            let cell : BoundaryCell :=
              { position := cellPos
                cellType
                pinName
                function := parseCellFunction function
                safeValue := if safe = ['0'] then 0 else if safe = ['1'] then 1 else -1
                disabledBy := if disabledBy ≠ [] ∧ disabledBy ≠ ['X'] then (stoi disabledBy).getD (-1) else -1
                disableValue := if disableVal = ['0'] then 0 else if disableVal = ['1'] then 1 else -1
                disableResult := parseDisableResult disableResult }
            cells fuel content (storeCell cell cellPos.toNat dev)

/-- `attribute BOUNDARY_REGISTER`. -/
def parseBoundaryRegister (ts : List Token) (dev : BSDLDevice) : Option (List Token × BSDLDevice) :=
  let (content, ts) := readConcatenatedString ts
  let dev := if dev.boundaryCells = [] ∧ 0 < dev.boundaryLength then
      { dev with boundaryCells := resizeCells dev.boundaryCells dev.boundaryLength }
    else dev
  (cells content.length content dev).map fun dev => (skipToSemicolon ts, dev)

/-- `attribute IDCODE_REGISTER`. -/
def parseIdcodeRegister (ts : List Token) (dev : BSDLDevice) : List Token × BSDLDevice :=
  let (content, ts) := readConcatenatedString ts
  let code := content.filter fun c => c = '0' ∨ c = '1'
  let raw := code.foldl (fun (raw : BitVec 32) c => raw <<< 1 ||| if c = '1' then 1 else 0) 0
  (skipToSemicolon ts,
    if code.length = 32 then
      { dev with
        idcode := ⟨raw, raw >>> 28 &&& 0xF, raw >>> 12 &&& 0xFFFF, raw >>> 1 &&& 0x7FF⟩ }
    else dev)

/-- Note a pin's package pin, and its number if it is one. -/
def mapPin (name num : Text) (dev : BSDLDevice) : BSDLDevice :=
  { dev with
    packagePinMap := dev.packagePinMap.insert name (num.map Char.toUpper)
    pins :=
      match dev.pins.lookup name, stoi num with
      | some pin, some n => dev.pins.insert name { pin with physicalPin := n }
      | _, _ => dev.pins }

/-- The entries `NAME:number, ...` of a pin map; lists of numbers are skipped. -/
def pinMap : (fuel : ℕ) → Text → BSDLDevice → BSDLDevice
  | 0, _, dev => dev
  | fuel + 1, content, dev =>
    let content := content.dropWhile isSeparator
    let stops := fun c => c = ':' ∨ c = ' ' ∨ c = '\t'
    let name := (content.takeWhile fun c => ¬stops c).map Char.toUpper
    let content := (content.dropWhile fun c => ¬stops c).dropWhile (· ≠ ':')
    if content = [] then dev
    else
      let content := content.tail.dropWhile fun c => c = ' ' ∨ c = '\t'
      if content.head? = some '(' then pinMap fuel (content.dropWhile (· ≠ ')')).tail dev
      else
        let num := content.takeWhile Char.isAlphanum
        let content := content.dropWhile Char.isAlphanum
        pinMap fuel content (if name ≠ [] ∧ num ≠ [] then mapPin name num dev else dev)

/-- `attribute PIN_MAP` or `PIN_MAP_STRING`. -/
def parsePinMap (ts : List Token) (dev : BSDLDevice) : List Token × BSDLDevice :=
  let (content, ts) := readConcatenatedString ts
  (skipToSemicolon ts, pinMap content.length content dev)

/-- Skip past the next `is`; nothing, when there is none. -/
def skipToIs : List Token → Option (List Token)
  | [] => none
  | t :: ts => if t.type = .identifier ∧ t.value = "IS".toList then some ts else skipToIs ts

/-- An attribute specification `attribute NAME of X : entity is VALUE;`, or a declaration, which
is skipped. -/
def parseAttribute (ts : List Token) (dev : BSDLDevice) : Option (List Token × BSDLDevice) :=
  let (name, ts) := next ts
  if name.type ≠ .identifier then some (ts, dev)
  else
    let (tok, ts) := next ts
    if tok.type = .identifier ∧ tok.value = "OF".toList then
      match skipToIs ts with
      | none => some ([], dev)
      | some ts =>
        if name.value = "INSTRUCTION_LENGTH".toList then parseInstructionLength ts dev
        else if name.value = "INSTRUCTION_OPCODE".toList then parseInstructionOpcode ts dev
        else if name.value = "BOUNDARY_LENGTH".toList then some (parseBoundaryLength ts dev)
        else if name.value = "BOUNDARY_REGISTER".toList then parseBoundaryRegister ts dev
        else if name.value = "IDCODE_REGISTER".toList then some (parseIdcodeRegister ts dev)
        else if name.value = "PIN_MAP".toList ∨ name.value = "PIN_MAP_STRING".toList then some (parsePinMap ts dev)
        else some (skipToSemicolon ts, dev)
    else some (skipToSemicolon ts, dev)

/-! ### The whole text -/

/-- The main loop. -/
def parseLoop : (fuel : ℕ) → List Token → BSDLDevice → Option BSDLDevice
  | 0, _, dev => some dev
  | fuel + 1, ts, dev =>
    let (tok, ts) := next ts
    if tok.type = .endOfFile then some dev
    else if tok.type = .identifier ∧ tok.value = "ENTITY".toList then
      let (ts, dev) := parseEntity ts dev
      parseLoop fuel ts dev
    else if tok.type = .identifier ∧ tok.value = "PORT".toList then
      let (ts, dev) := parsePorts ts dev
      parseLoop fuel ts dev
    else if tok.type = .identifier ∧ tok.value = "ATTRIBUTE".toList then
      (parseAttribute ts dev).bind fun (ts, dev) => parseLoop fuel ts dev
    else parseLoop fuel ts dev

/-- Parse BSDL from a string. The parser sets no error: what it does not understand it skips. -/
def parseString (source : Text) : Option BSDLDevice :=
  (parseLoop (tokens source).length (tokens source) {}).map BSDLDevice.crossReference

/-- Parse a BSDL file, given what reading it yields. -/
def parseFile (filepath : Text) (contents : Option Text) : Option (Except String BSDLDevice) :=
  match contents with
  | none => some (.error ("Cannot open file: " ++ String.ofList filepath))
  | some source => (parseString source).map .ok

end BSDLParser

end OwlTap.Bsdl
