/-!
# YAML Tags

A tag names the type of a node. It is a run of **bytes**: its characters in UTF-8, and the bytes
that its percent escapes spell, which need not form characters. A tag that starts with an
exclamation mark is local to the application; the tags of the YAML type repository name the types of
plain scalars.
-/

namespace RegisterMap.Yaml

/-- The **bytes of a tag**, or of a part of one. -/
abbrev TagBytes := List UInt8

namespace TagBytes

/-- The bytes of characters. -/
def ofChars (cs : List Char) : TagBytes := cs.flatMap String.utf8EncodeChar

/-- The bytes in front of the first zero byte, which ends a tag. -/
def untilZero (bytes : TagBytes) : TagBytes := bytes.takeWhile (· != 0)

/-- The characters that the bytes spell, if they do. -/
def toString? (bytes : TagBytes) : Option String := String.fromUTF8? ⟨bytes.toArray⟩

/-- The tag starts with an exclamation mark. -/
def isLocal (tag : TagBytes) : Bool := tag.head? == some 0x21

end TagBytes

/-! ### Escapes -/

/-- How many bytes of an escaped character follow its first byte. -/
def followingBytes? (first : UInt8) : Option Nat :=
  if first < 0x80 then some 0
  else if first < 0xC0 then none
  else if first < 0xE0 then some 1
  else if first < 0xF0 then some 2
  else if first < 0xF8 then some 3
  else none

/-- A byte that continues an escaped character. -/
def isFollowingByte (byte : UInt8) : Bool := 0x80 ≤ byte && byte < 0xC0

/-! ### What a tag means -/

/-- Text without the exclamation mark in front of it; text that is nothing but the mark keeps it. -/
def dropMark (s : String) : String :=
  match s.toList with
  | '!' :: c :: rest => String.ofList (c :: rest)
  | _ => s

/-- The name of a local tag: what stands behind its exclamation mark, and behind a second one. A
local tag whose bytes spell no characters has no name. -/
def localName? (tag : TagBytes) : Option String :=
  if tag.isLocal then tag.toString?.map fun s => dropMark (dropMark s) else none

/-- A tag of the **YAML type repository**. -/
def repositoryTag (name : String) : TagBytes :=
  TagBytes.ofChars ("tag:yaml.org,2002:" ++ name).toList

end RegisterMap.Yaml
