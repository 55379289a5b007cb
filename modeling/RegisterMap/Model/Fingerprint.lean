import RegisterMap.Digest.Sha256
import RegisterMap.Model.Encoding

/-!
# Fingerprints

The fingerprint of a model is the SHA-256 digest of its compact JSON text, so documents that resolve
to the same model have the same fingerprint however they were written.
-/

namespace RegisterMap

/-- The digest of a JSON value's compact text. -/
def Json.fingerprint (value : Json) : String := Sha256.hexDigest value.compact.toUTF8

namespace Model

/-- The text that the fingerprint covers. -/
def canonicalText (m : Model) : String := m.toJson.compact

/-- The **fingerprint** of the model. -/
def fingerprint (m : Model) : String := m.toJson.fingerprint

end Model

end RegisterMap
