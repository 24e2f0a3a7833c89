import Turnwise.Backend
import Turnwise.Text.Utf8

/-!
# The byte model

A deterministic backend for demonstrations and tests. Tokens below 256 are bytes; token 256 ends a
generation and has no text. A context keeps one list of tokens per slot and accepts a token only at
the end of its row, so that a position that is skipped or repeated is an error of the call.

The logits after a row favour one lower-case letter, chosen by a hash of the row's last sixteen
tokens and its length. Greedy decoding is therefore a function of the session's own row.
-/

namespace Turnwise.ByteModel

def endOfGeneration : Token := 256

/-- Bytes and the end of generation. -/
def vocabularySize : Nat := 257

structure Params where
  /-- From this row length on, ending the generation is the most likely continuation. -/
  endAfter : Option Nat := none
  /-- A byte that makes every call fail whose batch holds it. -/
  failOn : Option Nat := none
  deriving DecidableEq, Repr, Inhabited

/-- The rows of one worker. -/
structure Context where
  rows : List (List Token)
  deriving DecidableEq, Repr, Inhabited

/-- The tokens in a slot; there are none outside the context. -/
def Context.row (context : Context) (slot : Slot) : List Token :=
  (context.rows[slot.index]?).getD []

/-! ### Text -/

/-- The tokens of a text are its bytes. -/
def tokenize (text : String) : List Token := (Utf8.encode text).map UInt8.toNat

def bytes : List Token → Except Error (List UInt8)
  | [] => .ok []
  | token :: rest =>
      if token < 256 then (bytes rest).map (token.toUInt8 :: ·)
      else if token = endOfGeneration then bytes rest
      else .error (.tokenization s!"token {token} outside vocabulary")

def detokenize (tokens : List Token) : Except Error String := (bytes tokens).map Utf8.decodeLossy

/-! ### Logits -/

def hashStep (hash : UInt64) (token : Token) : UInt64 := (hash ^^^ token.toUInt64) * 0x100000001b3

/-- The hash of a row: its last sixteen tokens, started with its length. -/
def rowHash (row : List Token) : UInt64 :=
  (row.drop (row.length - 16)).foldl hashStep (0xcbf29ce484222325 ^^^ row.length.toUInt64)

/-- The letter that a row favours. -/
def peak (row : List Token) : Token := 97 + (rowHash row % 26).toNat

/-- A logit that excludes its token. -/
def masked : Float32 := Float32.ofBits 0xff800000

def logit (params : Params) (row : List Token) (token : Token) : Float32 :=
  if token = endOfGeneration then
    match params.endAfter with
    | some limit => if limit ≤ row.length then 20.0 else masked
    | none => masked
  else if token = peak row then 10.0
  else if 97 ≤ token ∧ token ≤ 122 then 1.0
  else masked

def logitsFor (params : Params) (row : List Token) : Logits :=
  (List.range vocabularySize).map (logit params row)

/-! ### Computing -/

/-- Checks one entry: its slot must be in the context, its token in the vocabulary and not the
failing one, and its position the next one of its row. `next` has the next positions of the rows for
which entries were checked before; that of any other row is its length. Gives the next positions
after the entry. -/
def checkEntry (params : Params) (context : Context) (next : List (Slot × Nat))
    (entry : BatchEntry) : Except Error (List (Slot × Nat)) :=
  match context.rows[entry.slot.index]? with
  | none => .error (.computeFailure s!"{entry.slot} outside context")
  | some row =>
      if vocabularySize ≤ entry.token then
        .error (.computeFailure s!"token {entry.token} outside vocabulary")
      else if params.failOn = some entry.token then
        .error (.computeFailure s!"injected failure on token {entry.token}")
      else
        let expected := (next.lookup entry.slot).getD row.length
        if entry.position ≠ expected then
          .error <| .computeFailure
            s!"{entry.slot} expected position {expected}, got {entry.position}"
        else .ok ((entry.slot, expected + 1) :: next)

/-- Checks entries in order. Nothing is written meanwhile. -/
def checkAll (params : Params) (context : Context) :
    List (Slot × Nat) → List BatchEntry → Except Error Unit
  | _, [] => .ok ()
  | next, entry :: rest =>
      match checkEntry params context next entry with
      | .ok next => checkAll params context next rest
      | .error e => .error e

/-- Puts a token at the end of a row. -/
def Context.push (context : Context) (slot : Slot) (token : Token) : Context :=
  { rows := context.rows.modify slot.index fun row => row ++ [token] }

/-- Writes entries in order, collecting the logits that they ask for. -/
def pushAll (params : Params) : Context → List BatchEntry → Context × List Logits
  | context, [] => (context, [])
  | context, entry :: rest =>
      let context := context.push entry.slot entry.token
      let (last, rows) := pushAll params context rest
      (last,
        if entry.wantLogits then logitsFor params (context.row entry.slot) :: rows else rows)

/-- Writes a batch as a whole: it is checked before anything is written, so if any entry is refused,
the context stays as it was. -/
def compute (params : Params) (context : Context) (batch : Batch) :
    Context × Except Error (List Logits) :=
  match checkAll params context [] batch.entries with
  | .ok () =>
      let (written, rows) := pushAll params context batch.entries
      (written, .ok rows)
  | .error e => (context, .error e)

def removeSlot (context : Context) (slot : Slot) : Context :=
  { rows := context.rows.modify slot.index fun _ => [] }

def backend (params : Params) : Backend where
  Context := Context
  name := "byte-level"
  vocabularySize := vocabularySize
  tokenize text := .ok (tokenize text)
  detokenize := detokenize
  isEndOfGeneration token := token == endOfGeneration
  newContext slots := .ok { rows := List.replicate slots [] }
  slotCount context := context.rows.length
  residentLength context slot := (context.row slot).length
  removeSlot := removeSlot
  compute := compute params

end Turnwise.ByteModel
