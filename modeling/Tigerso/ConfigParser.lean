import Tigerso.HttpMessage

/-!
# core/ConfigParser: the map of a configuration file
-/

open SystemCalls

/-- `std::map::insert`: a key that is there keeps its value. -/
def insertNew {β : Type} (entries : List (Bytes × β)) (entry : Bytes × β) : List (Bytes × β) :=
  if (entries.lookup entry.1).isSome then entries else entries ++ [entry]

theorem lookup_insertNew {β : Type} (entries : List (Bytes × β)) (entry : Bytes × β)
    (behind : List (Bytes × β)) (key : Bytes) :
    (insertNew entries entry ++ behind).lookup key = (entries ++ entry :: behind).lookup key := by
  rw [insertNew]
  split_ifs with there
  · by_cases same : key = entry.1
    · obtain ⟨value, found⟩ := Option.isSome_iff_exists.mp there
      rw [same, List.lookup_append, List.lookup_append, found, Option.some_or, Option.some_or]
    · have other : (key == entry.1) = false := beq_eq_false_iff_ne.mpr same
      rw [List.lookup_append, List.lookup_append, List.lookup_cons, other]
  · rw [List.append_assoc, List.singleton_append]

namespace ConfigParser

def sectb : Byte := 91
def comtb : Byte := 35
def keyb : Byte := 61

/-- The lines that `getline` gives, one after the other. -/
def getlines : Bytes → List Bytes
  | [] => []
  | b :: rest =>
    if b = 10 then [] :: getlines rest
    else match getlines rest with
      | [] => [[b]]
      | line :: more => (b :: line) :: more

/-- What `decideLineType` returns, and what it stores in `content`. -/
inductive LineType where
  | section_ (content : Bytes)
  | comment
  | keyVal (content : Bytes)
  | errLine
  deriving DecidableEq, Repr

/-- Where a loop over a line leaves, for a byte or at `len`. -/
def scan (line : Bytes) (len : Int) (stop : Byte → Bool) : Nat :=
  (line.take len.toNat).findIdx stop

def decideLineType (line : Bytes) : LineType :=
  let len := HttpBodyFile.toInt line.length
  let idx := scan line len fun b => b != 32
  let emptyLine := decide (len ≤ idx)
  let lst := line.getD 0 0
  if lst = sectb then
    let idx := scan line len fun b => b == sectb
    if len ≤ idx ∧ line.getD idx 0 ≠ sectb then .errLine
    else .section_ ((line.drop 1).take (sizeT (HttpBodyFile.toInt (len - 2))))
  else if lst = comtb then .comment
  else if emptyLine then .errLine
  else
    let idx := scan line len fun b => b == keyb
    if len ≤ idx ∧ line.getD idx 0 ≠ keyb then .errLine else .keyVal line

/-- The key and the value of a line that has a `KEYB`. -/
def split (content : Bytes) : Bytes × Bytes :=
  let idx := content.findIdx fun b => b == keyb
  (content.take idx, content.drop (idx + 1))

abbrev ConfigMap := List (Bytes × List (Bytes × Bytes))

/-- The variables of the loop of `loadConfig2Map`. -/
structure Loading where
  configMap : ConfigMap
  section_ : Bytes
  kvMap : List (Bytes × Bytes)
  is1stSec : Bool

def load (l : Loading) (line : Bytes) : Loading :=
  match decideLineType line with
  | .section_ content =>
    if l.is1stSec then { l with is1stSec := false, section_ := content }
    else
      { l with
        configMap := insertNew l.configMap (l.section_, l.kvMap)
        kvMap := []
        section_ := content }
  | .keyVal content => { l with kvMap := insertNew l.kvMap (split content) }
  | _ => l

/-- `loadConfig2Map` of a file with this text. Both callers clear the map first. -/
def loadConfig2Map (text : Bytes) : ConfigMap :=
  let l := (getlines text).foldl load ⟨[], [], [], true⟩
  insertNew l.configMap (l.section_, l.kvMap)

def getValueByKey (configMap : ConfigMap) (sect key : Bytes) : Bytes :=
  match configMap.lookup sect with
  | none => []
  | some kvMap => (kvMap.lookup key).getD []

end ConfigParser
