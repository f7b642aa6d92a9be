import Herald.Json.Shape

/-!
# Scanning a text

The scanner takes one byte at a time and keeps a stack of the containers that wait for a value.

* `NumeralDraft`, `QuotedPart`: how far a numeral or a quoted text is spelled;
* `State`, `Scan`: what comes next, and the containers around it;
* `Scan.step`, `Scan.finish`: a byte, and the end of the text;
* `Text.ofBytes`: the shape of a whole text.
-/

namespace Herald.Json

/-! ### Numerals -/

/-- How far a numeral is spelled. -/
inductive NumeralPart
  /-- After the sign: a digit is due. -/
  | sign
  /-- After a zero that leads: no digit may follow. -/
  | zero
  | whole
  /-- After the point: a digit is due. -/
  | point
  | fraction
  /-- After the mark of the exponent: a sign or a digit is due. -/
  | mark
  /-- After the sign of the exponent: a digit is due. -/
  | markSign
  | exponent
  deriving DecidableEq, Repr

/-- A numeral in the making, its digits last first. -/
structure NumeralDraft where
  part : NumeralPart
  negative : Bool
  whole : List Nat
  fraction : List Nat
  exponentNegative : Bool
  exponent : Nat
  deriving DecidableEq, Repr

namespace NumeralDraft

/-- A numeral before its first digit. -/
def start (negative : Bool) : NumeralDraft := ⟨.sign, negative, [], [], false, 0⟩

/-- The numeral that is complete at this place, if one is. -/
def done? (n : NumeralDraft) : Option Numeral :=
  match n.part with
  | .zero | .whole => some ⟨n.negative, n.whole.reverse, [], none⟩
  | .fraction => some ⟨n.negative, n.whole.reverse, n.fraction.reverse, none⟩
  | .exponent =>
    some ⟨n.negative, n.whole.reverse, n.fraction.reverse,
      some (if n.exponentNegative then -(n.exponent : Int) else n.exponent)⟩
  | .sign | .point | .mark | .markSign => none

/-- The digit that a byte stands for. -/
def digit? (b : UInt8) : Option Nat :=
  if 0x30 ≤ b && b ≤ 0x39 then some (b.toNat - 0x30) else none

/-- Take a digit; `none` if none may stand here. -/
def takeDigit (n : NumeralDraft) (d : Nat) : Option NumeralDraft :=
  match n.part with
  | .sign => some { n with part := if d = 0 then .zero else .whole, whole := [d] }
  | .whole => some { n with whole := d :: n.whole }
  | .point | .fraction => some { n with part := .fraction, fraction := d :: n.fraction }
  | .mark | .markSign | .exponent =>
    some { n with part := .exponent, exponent := 10 * n.exponent + d }
  | .zero => none

/-- Take a point, a mark or a sign; `none` if it does not go on with the numeral. -/
def takeMark (n : NumeralDraft) (b : UInt8) : Option NumeralDraft :=
  match n.part with
  | .zero | .whole =>
    if b = 0x2E then some { n with part := .point }
    else if b = 0x65 || b = 0x45 then some { n with part := .mark }
    else none
  | .fraction => if b = 0x65 || b = 0x45 then some { n with part := .mark } else none
  | .mark =>
    if b = 0x2B then some { n with part := .markSign }
    else if b = 0x2D then some { n with part := .markSign, exponentNegative := true }
    else none
  | .sign | .point | .markSign | .exponent => none

end NumeralDraft

/-! ### Quoted texts -/

/-- Where a scan stands inside a quoted text. -/
inductive QuotedPart
  | plain
  | escape
  /-- The bytes of a unit so far, last first; the four of them are judged together. -/
  | unit (digits : List UInt8)
  deriving DecidableEq, Repr

namespace QuotedPart

/-- The value of a hexadecimal digit of either case. -/
def hexValue? (b : UInt8) : Option Nat :=
  if 0x30 ≤ b && b ≤ 0x39 then some (b.toNat - 0x30)
  else if 0x61 ≤ b && b ≤ 0x66 then some (b.toNat - 0x57)
  else if 0x41 ≤ b && b ≤ 0x46 then some (b.toNat - 0x37)
  else none

/-- The unit that bytes spell, the last one first. -/
def unit? : List UInt8 → Option Nat
  | [] => some 0
  | b :: bs => do
    let high ← unit? bs
    let low ← hexValue? b
    pure (16 * high + low)

/-- The byte that a short escape stands for. -/
def shortEscape? (b : UInt8) : Option UInt8 :=
  if b = 0x22 || b = 0x5C || b = 0x2F then some b
  else if b = 0x62 then some 0x08
  else if b = 0x66 then some 0x0C
  else if b = 0x6E then some 0x0A
  else if b = 0x72 then some 0x0D
  else if b = 0x74 then some 0x09
  else none

/-- What a byte other than the closing quote does: it goes on with the text, with one piece more if
it completes one, or it may not stand here. -/
def step (p : QuotedPart) (b : UInt8) : Option (Option Piece × QuotedPart) :=
  match p with
  | .plain =>
    if b = 0x5C then some (none, .escape)
    else if b < 0x20 then none
    else some (some (.byte b), .plain)
  | .escape =>
    if b = 0x75 then some (none, .unit [])
    else (shortEscape? b).map fun c => (some (.byte c), .plain)
  | .unit ds =>
    if ds.length < 3 then some (none, .unit (b :: ds))
    else (unit? (b :: ds)).map fun u => (some (.unit u), .plain)

end QuotedPart

/-! ### The scanner -/

/-- A container that waits for a value, with what it holds so far, last first. -/
inductive Frame
  | item (items : List Shape)
  | member (members : List (Quoted × Shape)) (key : Quoted)
  deriving Repr

/-- A container between two values, with what it holds so far, last first. -/
inductive Container
  | array (items : List Shape)
  | object (members : List (Quoted × Shape))
  deriving Repr

/-- The shape of a container that ends here. -/
def Container.close (stop : Option Fault) : Container → Shape
  | .array items => .array items.reverse stop
  | .object members => .object members.reverse stop

/-- What comes next. -/
inductive State
  /-- A value is due. -/
  | value
  /-- The first item or the end of a list is due. -/
  | firstItem
  /-- The first key or the end of an object is due. -/
  | firstKey
  /-- A key is due, after these members. -/
  | key (members : List (Quoted × Shape))
  /-- The colon after a key is due. -/
  | colon (members : List (Quoted × Shape)) (key : Quoted)
  /-- A comma or the end of a container is due. -/
  | next (c : Container)
  | literal (rest : List UInt8) (shape : Shape)
  | numeral (n : NumeralDraft)
  /-- Inside a quoted text, its pieces last first. A key comes with the members before it. -/
  | quoted (before : Option (List (Quoted × Shape))) (pieces : List Piece) (part : QuotedPart)
  /-- The text is complete. -/
  | complete (root : Shape)
  /-- Something follows the text. -/
  | trailing (root : Shape)
  /-- The text has broken off. -/
  | failed (root : Shape)
  deriving Repr

/-- A scan: the containers that wait for a value, innermost first, and what comes next. -/
structure Scan where
  stack : List Frame
  state : State
  deriving Repr

namespace Scan

/-- The scan before the first byte. -/
def start : Scan := ⟨[], .value⟩

/-- A value is complete: it joins the innermost container, or is the text. -/
def push (s : Shape) : List Frame → Scan
  | [] => ⟨[], .complete s⟩
  | .item items :: fs => ⟨fs, .next (.array (s :: items))⟩
  | .member members k :: fs => ⟨fs, .next (.object ((k, s) :: members))⟩

/-- The shape of a text that ends inside the containers of a stack, with a fault. -/
def enclose (f : Fault) (leaf : Shape) : List Frame → Shape
  | [] => leaf
  | .item items :: fs => enclose f ((Container.array (leaf :: items)).close (some f)) fs
  | .member members k :: fs =>
    enclose f ((Container.object ((k, leaf) :: members)).close (some f)) fs

/-- The shape of what a state is about, if the text ends there with a fault. -/
def leaf (f : Fault) : State → Shape
  | .value | .literal .. => .broken f
  | .numeral _ => if f = .truncated then .cutNumeral else .broken f
  | .firstItem => .array [] (some f)
  | .firstKey => .object [] (some f)
  | .key members => (Container.object members).close (some f)
  | .colon members k => (Container.object ((k, .broken f) :: members)).close (some f)
  | .next c => c.close (some f)
  | .quoted none ps _ => .string ⟨ps.reverse, some f⟩
  | .quoted (some members) ps _ =>
    (Container.object ((⟨ps.reverse, some f⟩, .broken f) :: members)).close (some f)
  | .complete root | .trailing root | .failed root => root

/-- The shape of a text that ends here with a fault. A complete text has no container around it. -/
def shape (f : Fault) (c : Scan) : Shape := enclose f (leaf f c.state) c.stack

/-- Break off. -/
def fail (f : Fault) (c : Scan) : Scan := ⟨[], .failed (c.shape f)⟩

/-- Blank, tab, line feed and carriage return are the blanks of the grammar. -/
def isSpace (b : UInt8) : Bool := b = 0x20 || b = 0x09 || b = 0x0A || b = 0x0D

/-- The first byte of a value. -/
def startValue (stack : List Frame) (b : UInt8) : Scan :=
  if b = 0x22 then ⟨stack, .quoted none [] .plain⟩
  else if b = 0x5B then ⟨stack, .firstItem⟩
  else if b = 0x7B then ⟨stack, .firstKey⟩
  else if b = 0x2D then ⟨stack, .numeral (.start true)⟩
  else if b = 0x6E then ⟨stack, .literal [0x75, 0x6C, 0x6C] .null⟩
  else if b = 0x74 then ⟨stack, .literal [0x72, 0x75, 0x65] (.bool true)⟩
  else if b = 0x66 then ⟨stack, .literal [0x61, 0x6C, 0x73, 0x65] (.bool false)⟩
  else
    match (NumeralDraft.digit? b).bind ((NumeralDraft.start false).takeDigit ·) with
    | some n => ⟨stack, .numeral n⟩
    | none => fail .malformed ⟨stack, .value⟩

/-- The byte after a value inside a container. -/
def stepNext (stack : List Frame) (c : Container) (b : UInt8) : Scan :=
  match c with
  | .array items =>
    if b = 0x2C then ⟨.item items :: stack, .value⟩
    else if b = 0x5D then push (c.close none) stack
    else fail .malformed ⟨stack, .next c⟩
  | .object members =>
    if b = 0x2C then ⟨stack, .key members⟩
    else if b = 0x7D then push (c.close none) stack
    else fail .malformed ⟨stack, .next c⟩

/-- The byte after a complete value, wherever it stands. -/
def after (c : Scan) (b : UInt8) : Scan :=
  if isSpace b then c
  else
    match c.state with
    | .next container => stepNext c.stack container b
    | .complete root => ⟨[], .trailing root⟩
    | _ => c

/-- The next byte of a literal. -/
def stepLiteral (stack : List Frame) (rest : List UInt8) (s : Shape) (b : UInt8) : Scan :=
  match rest with
  | [] => after (push s stack) b
  | [r] => if b = r then push s stack else fail .malformed ⟨stack, .value⟩
  | r :: rest => if b = r then ⟨stack, .literal rest s⟩ else fail .malformed ⟨stack, .value⟩

/-- The next byte of a numeral. A byte that does not go on with it is the byte after it. -/
def stepNumeral (stack : List Frame) (n : NumeralDraft) (b : UInt8) : Scan :=
  match NumeralDraft.digit? b with
  | some d =>
    match n.takeDigit d with
    | some n => ⟨stack, .numeral n⟩
    | none => fail .malformed ⟨stack, .numeral n⟩
  | none =>
    match n.takeMark b, n.done? with
    | some n, _ => ⟨stack, .numeral n⟩
    | none, some m => after (push (.number m) stack) b
    | none, none => fail .malformed ⟨stack, .numeral n⟩

/-- A quoted text is complete: a value, or a key after the members before it. -/
def pushQuoted (before : Option (List (Quoted × Shape))) (q : Quoted) (stack : List Frame) : Scan :=
  match before with
  | none => push (.string q) stack
  | some members => ⟨stack, .colon members q⟩

/-- The next byte of a quoted text. -/
def stepQuoted (stack : List Frame) (before : Option (List (Quoted × Shape))) (ps : List Piece)
    (part : QuotedPart) (b : UInt8) : Scan :=
  if part = .plain && b = 0x22 then pushQuoted before ⟨ps.reverse, none⟩ stack
  else
    match part.step b with
    | some (piece, part) => ⟨stack, .quoted before (piece.toList ++ ps) part⟩
    | none => fail .malformed ⟨stack, .quoted before ps part⟩

/-- A byte where a key is due, after these members. -/
def startKey (c : Scan) (members : List (Quoted × Shape)) (b : UInt8) : Scan :=
  if b = 0x22 then ⟨c.stack, .quoted (some members) [] .plain⟩ else fail .malformed c

/-- Take one byte. -/
def step (c : Scan) (b : UInt8) : Scan :=
  match c.state with
  | .value => if isSpace b then c else startValue c.stack b
  | .firstItem =>
    if isSpace b then c
    else if b = 0x5D then push (.array [] none) c.stack
    else startValue (.item [] :: c.stack) b
  | .firstKey =>
    if isSpace b then c
    else if b = 0x7D then push (.object [] none) c.stack
    else startKey c [] b
  | .key members => if isSpace b then c else startKey c members b
  | .colon members k =>
    if isSpace b then c
    else if b = 0x3A then ⟨.member members k :: c.stack, .value⟩
    else fail .malformed c
  | .literal rest s => stepLiteral c.stack rest s b
  | .numeral n => stepNumeral c.stack n b
  | .quoted before ps part => stepQuoted c.stack before ps part b
  | .next _ | .complete _ => after c b
  | .trailing _ | .failed _ => c

/-- At the end of the text a numeral may be complete. -/
def endNumeral (c : Scan) : Scan :=
  match c.state with
  | .numeral n =>
    match n.done? with
    | some m => push (.number m) c.stack
    | none => c
  | _ => c

/-- Whether something follows the text. -/
def isTrailing (c : Scan) : Bool :=
  match c.state with
  | .trailing _ => true
  | _ => false

/-- The text has ended. -/
def finish (c : Scan) : Text := ⟨c.endNumeral.shape .truncated, c.isTrailing⟩

end Scan

/-- The shape of a text. -/
def Text.ofBytes (bs : List UInt8) : Text := (bs.foldl Scan.step Scan.start).finish

end Herald.Json
