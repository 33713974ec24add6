import Vops.Lib.Json
import Vops.Lib.TextLines
import Mathlib.Data.List.Infix

/-!
# Transforms of `authorized_keys` (`host-ops/authorized-keys.ts`)

* `isOpsLine` — the line of a profile, found by its tag; `keyOf` — the key that a line authorizes.
* `upsertOpsLine`, `removeOpsLine`, `assessRevokeSafety` — what install-ops and revoke-ops compute.
* `extractOptions`, `buildOpsLine`, `classifyRotation` — what rotate-ops computes.

A text is a list of characters.
-/

namespace Vops.AuthorizedKeys

abbrev Text := List Char

/-- `text.trim()` -/
def trim (cs : Text) : Text := (cs.dropWhile isJsSpace).rdropWhile isJsSpace

/-- `text.split(/\s+/)` -/
def split (cs : Text) : List Text := TextLines.fields isJsSpace cs

/-- `opsTag` -/
def opsTag (profileId : Text) : Text := "vops-ops:".toList ++ profileId

/-- `isKeyType` -/
def isKeyType (tok : Text) : Bool :=
  "ssh-".toList.isPrefixOf tok || "ecdsa-sha2-".toList.isPrefixOf tok ||
    "sk-ssh-".toList.isPrefixOf tok || "sk-ecdsa-".toList.isPrefixOf tok

/-- `toLines` -/
def toLines (content : Text) : List Text :=
  let trimmed := content.rdropWhile (· = '\n')
  if trimmed = [] then [] else trimmed.splitOn '\n'

/-- `fromLines` -/
def fromLines (lines : List Text) : Text :=
  if lines = [] then [] else ['\n'].intercalate lines ++ ['\n']

/-- The key of a line: the field behind the key type, which options may precede. -/
def keyOf (line : Text) : Option Text :=
  let t := trim line
  if t = [] ∨ t.head? = some '#' then none
  else
    let parts := split t
    let key :=
      if isKeyType (parts.getD 0 []) then parts.getD 1 []
      else if isKeyType (parts.getD 1 []) then parts.getD 2 []
      else []
    if key = [] then none else some key

/-- `isKeyLine` -/
def isKeyLine (line : Text) : Bool := (keyOf line).isSome

/-- `isOpsLine` -/
def isOpsLine (line tag : Text) : Bool :=
  let t := trim line
  if t = [] ∨ t.head? = some '#' then false else (' ' :: tag).isSuffixOf t || t == tag

/-- `upsertOpsLine`: the new text, and whether the line was not there before. -/
def upsertOpsLine (content line tag : Text) : Text × Bool :=
  let lines := toLines content
  let alreadyIdentical := lines.any fun l => trim l == trim line
  let withoutOps := lines.filter fun l => !isOpsLine l tag
  (fromLines (withoutOps ++ [line]), !alreadyIdentical)

/-- `removeOpsLine`: the new text, and how many lines were removed. -/
def removeOpsLine (content tag : Text) : Text × ℕ :=
  let lines := toLines content
  let kept := lines.filter fun l => !isOpsLine l tag
  (fromLines kept, lines.length - kept.length)

/-- `hasOtherAuthorizedKey` -/
def hasOtherAuthorizedKey (content tag : Text) : Bool :=
  (toLines content).any fun l => isKeyLine l && !isOpsLine l tag

/-- `keyBlob` -/
def keyBlob (publicKey : Text) : Text := (split (trim publicKey)).getD 1 []

/-- `authorizesBlob` -/
def authorizesBlob (content data : Text) : Bool :=
  (toLines content).any fun l => isKeyLine l && decide (data <:+: l)

inductive RevokeSafetyReason
  | userKeyRemains
  | otherKeyRemains
  | userKeyNotInFile
  | userKeyIsBeingRemoved
  | noVerifiedUserKey
deriving DecidableEq

/-- `assessRevokeSafety` -/
def assessRevokeSafety (before after tag : Text) (verifiedUserPublicKey : Option Text) :
    Bool × RevokeSafetyReason :=
  let blob := keyBlob (verifiedUserPublicKey.getD [])
  if blob ≠ [] ∧ authorizesBlob after blob then (true, .userKeyRemains)
  else if hasOtherAuthorizedKey after tag then (true, .otherKeyRemains)
  else if blob = [] then (false, .noVerifiedUserKey)
  else if !authorizesBlob before blob then (true, .userKeyNotInFile)
  else (false, .userKeyIsBeingRemoved)

/-- `KEY_TYPE_RE` -/
def KEY_TYPE_RE (tok : Text) : Bool :=
  "ssh-".toList.isPrefixOf tok || "ecdsa-".toList.isPrefixOf tok || "sk-".toList.isPrefixOf tok

/-- `extractOptions` -/
def extractOptions (line : Text) : Text :=
  let parts := split (trim line)
  if KEY_TYPE_RE (parts.getD 0 []) then []
  else if KEY_TYPE_RE (parts.getD 1 []) then parts.getD 0 []
  else []

/-- `buildOpsLine` -/
def buildOpsLine (publicKey tag options : Text) : Text :=
  let parts := split publicKey
  let type := parts.getD 0 "undefined".toList
  let data := parts.getD 1 "undefined".toList
  trim (options ++ ' ' :: (type ++ ' ' :: (data ++ ' ' :: tag)))

/-- `findOpsLine` -/
def findOpsLine (content tag : Text) : Option Text :=
  (toLines content).find? fun l => isOpsLine l tag

inductive RotateState
  | done | mid | old | absent
deriving DecidableEq

/-- `classifyRotation` -/
def classifyRotation (content canonicalTag tempTag nextPublicKey : Text) : RotateState :=
  let canonical := findOpsLine content canonicalTag
  let nextData := (split nextPublicKey).getD 1 ['\x00']
  if canonical.any fun l => decide (nextData <:+: l) then .done
  else if (findOpsLine content tempTag).isSome then .mid
  else if canonical.isSome then .old
  else .absent

/-! ## Lines of the transformed texts -/

theorem toLines_eq (content : Text) : toLines content = TextLines.trimmed content :=
  (TextLines.trimmed_eq_splitOn content).symm

theorem fromLines_eq (lines : List Text) : fromLines lines = TextLines.join lines := by
  induction lines with
  | nil => rfl
  | cons l ls ih =>
      cases ls with
      | nil => simp [fromLines, TextLines.join]
      | cons m ms =>
          rw [TextLines.join, ← ih]
          simp [fromLines, List.intercalate_cons_cons]

theorem newline_notMem {content line : Text} (h : line ∈ toLines content) : '\n' ∉ line :=
  TextLines.newline_notMem_of_mem_trimmed (by rwa [toLines_eq] at h)

theorem newline_notMem_filter {content line : Text} {P : Text → Bool}
    (h : line ∈ (toLines content).filter P) : '\n' ∉ line :=
  newline_notMem (List.mem_filter.mp h).1

/-- The lines of what `upsertOpsLine` writes: the lines that are kept, and the new one. -/
theorem lines_upsertOpsLine (content line tag : Text) :
    TextLines.lines (upsertOpsLine content line tag).1 =
      ((toLines content).filter fun l => !isOpsLine l tag) ++ TextLines.lines (line ++ ['\n']) := by
  simp only [upsertOpsLine, fromLines_eq, TextLines.join_append]
  exact TextLines.lines_join_append (fun l hl => newline_notMem_filter hl) _

/-- The lines of what `removeOpsLine` writes. -/
theorem lines_removeOpsLine (content tag : Text) :
    TextLines.lines (removeOpsLine content tag).1 =
      (toLines content).filter fun l => !isOpsLine l tag := by
  simp only [removeOpsLine, fromLines_eq]
  exact TextLines.lines_join fun l hl => newline_notMem_filter hl

/-- An empty line carries no tag. -/
theorem isOpsLine_nil (tag : Text) : isOpsLine [] tag = false := by
  simp [isOpsLine, trim]

theorem toLines_removeOpsLine (content tag : Text) : toLines (removeOpsLine content tag).1 =
    TextLines.dropBlank ((toLines content).filter fun l => !isOpsLine l tag) := by
  rw [toLines_eq, TextLines.trimmed, lines_removeOpsLine]

end Vops.AuthorizedKeys
