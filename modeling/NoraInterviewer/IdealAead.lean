import Mathlib.Data.List.Infix

/-! Authenticated encryption under one key, idealised: it opens what it has sealed, and nothing
else. -/

namespace IdealAead

/-- The ciphertexts of one key: sixteen bytes longer than the data, and different for different
data. -/
class Aead where
  encrypt : (nonce data associated : List UInt8) → List UInt8
  encrypt_length : ∀ nonce data associated,
    (encrypt nonce data associated).length = data.length + 16
  encrypt_injective : ∀ nonce data data' associated,
    encrypt nonce data associated = encrypt nonce data' associated → data = data'

/-- One use of `encrypt`. -/
structure Sealing where
  nonce : List UInt8
  data : List UInt8
  associated : List UInt8
  deriving DecidableEq

variable [Aead]

def Sealing.ciphertext (sealing : Sealing) : List UInt8 :=
  Aead.encrypt sealing.nonce sealing.data sealing.associated

/-- What comes of a ciphertext, by what has been sealed. -/
def decrypt (sealings : List Sealing) (nonce ciphertext associated : List UInt8) :
    Option (List UInt8) :=
  (sealings.find? fun sealing => sealing.nonce = nonce ∧ sealing.associated = associated ∧
    sealing.ciphertext = ciphertext).map Sealing.data

theorem decrypt_some {sealings : List Sealing} {nonce ciphertext associated data : List UInt8} :
    decrypt sealings nonce ciphertext associated = some data ↔
      ⟨nonce, data, associated⟩ ∈ sealings ∧ Aead.encrypt nonce data associated = ciphertext := by
  unfold decrypt
  constructor
  · intro h
    obtain ⟨sealing, hfind, rfl⟩ := Option.map_eq_some_iff.mp h
    have hsealing : sealing.nonce = nonce ∧ sealing.associated = associated ∧
        sealing.ciphertext = ciphertext := by
      simpa using List.find?_some hfind
    obtain ⟨rfl, rfl, hciphertext⟩ := hsealing
    exact ⟨List.mem_of_find?_eq_some hfind, hciphertext⟩
  · rintro ⟨hmem, rfl⟩
    have hsome : (sealings.find? fun sealing => sealing.nonce = nonce ∧
        sealing.associated = associated ∧
        sealing.ciphertext = Aead.encrypt nonce data associated).isSome = true := by
      rw [List.find?_isSome]
      exact ⟨_, hmem, decide_eq_true ⟨rfl, rfl, rfl⟩⟩
    obtain ⟨sealing, hfind⟩ := Option.isSome_iff_exists.mp hsome
    have hsealing : sealing.nonce = nonce ∧ sealing.associated = associated ∧
        sealing.ciphertext = Aead.encrypt nonce data associated := by
      simpa using List.find?_some hfind
    obtain ⟨rfl, rfl, hciphertext⟩ := hsealing
    rw [hfind, Option.map_some, Aead.encrypt_injective _ _ _ _ hciphertext]

end IdealAead
