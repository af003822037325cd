import Mathlib.Data.List.Infix
import Mathlib.Data.Option.Basic
import Mathlib.Data.String.Basic

/-!
Redaction and size caps of `store_failure` (`audit/masking.py`, `services/dlq_capture/service.py`). A
payload is an object, so the masker's own branch for lists is not reached.
-/

namespace Baldur.Dlq

open Option

inductive JsonScalar
  | null
  | bool (value : Bool)
  | number (literal : String)
  | text (value : String)
  deriving DecidableEq

mutual

inductive Json
  | scalar (value : JsonScalar)
  | list (items : JsonItems)
  | object (fields : JsonFields)

inductive JsonItems
  | nil
  | cons (item : Json) (rest : JsonItems)

inductive JsonFields
  | nil
  | cons (key : String) (value : Json) (rest : JsonFields)

end

def defaultSensitiveKeys : List String :=
  ["password", "secret", "token", "api_key", "apikey", "authorization", "auth", "credential", "private_key",
    "credit_card", "ssn", "social_security", "card_number", "cvv", "cvc", "iban", "account_number",
    "routing_number", "passport", "driver_license", "tax_id", "access_key"]

structure Texts where
  lower : String → String
  encodedSize : JsonFields → Nat
  str : JsonFields → String

namespace Texts

variable (texts : Texts)

def isSensitive (key : String) : Bool :=
  defaultSensitiveKeys.any fun sensitive => sensitive.toList <:+: (texts.lower key).toList

mutual

def maskFields : JsonFields → JsonFields
  | .nil => .nil
  | .cons key value rest =>
      .cons key (if texts.isSensitive key then .scalar (.text "***REDACTED***") else maskValue value) (maskFields rest)

def maskValue : Json → Json
  | .object fields => .object (maskFields fields)
  | .list items => .list (maskItems items)
  | .scalar value => .scalar value

def maskItems : JsonItems → JsonItems
  | .nil => .nil
  | .cons (.object fields) rest => .cons (.object (maskFields fields)) (maskItems rest)
  | .cons item rest => .cons item (maskItems rest)

end

def truncateFieldIfOversize (maxBytes : Nat) : Option JsonFields → Option JsonFields
  | none => none
  | some .nil => some .nil
  | some fields =>
      if texts.encodedSize fields ≤ maxBytes then some fields
      else some (.cons "_truncated" (.scalar (.bool true))
        (.cons "original_size" (.scalar (.number (texts.encodedSize fields).repr))
          (.cons "preview" (.scalar (.text (String.ofList ((texts.str fields).toList.take 200)))) .nil)))

end Texts

inductive PayloadName
  | requestData
  | snapshotData
  | responseData
  | metadata
  deriving DecidableEq

abbrev Payloads := PayloadName → Option JsonFields

structure SizeCaps where
  requestCap : Nat
  fieldMaxBytes : Nat

def SizeCaps.of (caps : SizeCaps) : PayloadName → Nat
  | .requestData => caps.requestCap
  | _ => caps.fieldMaxBytes

/-- The payloads handed on; on its way to the repository the metadata is annotated once more. -/
def storeFailure (texts : Texts) (caps : SizeCaps) (annotate : Option JsonFields → Option JsonFields)
    (payloads : Payloads) : Payloads := fun name =>
  let capped := texts.truncateFieldIfOversize (caps.of name) ((payloads name).map texts.maskFields)
  if name = .metadata then annotate capped else capped

section Relations

variable (texts : Texts)

mutual

inductive AlikeFields : JsonFields → JsonFields → Prop
  | nil : AlikeFields .nil .nil
  | secret {key : String} {rest rest' : JsonFields} (value value' : Json) (sensitive : texts.isSensitive key = true)
      (later : AlikeFields rest rest') : AlikeFields (.cons key value rest) (.cons key value' rest')
  | plain {key : String} {value value' : Json} {rest rest' : JsonFields} (held : AlikeValue value value')
      (later : AlikeFields rest rest') : AlikeFields (.cons key value rest) (.cons key value' rest')

inductive AlikeValue : Json → Json → Prop
  | scalar (value : JsonScalar) : AlikeValue (.scalar value) (.scalar value)
  | list {items items' : JsonItems} (held : AlikeItems items items') : AlikeValue (.list items) (.list items')
  | object {fields fields' : JsonFields} (held : AlikeFields fields fields') :
      AlikeValue (.object fields) (.object fields')

inductive AlikeItems : JsonItems → JsonItems → Prop
  | nil : AlikeItems .nil .nil
  | cons {item item' : Json} {rest rest' : JsonItems} (held : AlikeValue item item')
      (later : AlikeItems rest rest') : AlikeItems (.cons item rest) (.cons item' rest')

end

mutual

/-- Outside sensitive values, a list that is an item of a list is the same in both. -/
def InnerSame : JsonFields → JsonFields → Prop
  | .cons key value rest, .cons _ value' rest' =>
      (texts.isSensitive key = true ∨ InnerSameValue value value') ∧ InnerSame rest rest'
  | _, _ => True

def InnerSameValue : Json → Json → Prop
  | .list items, .list items' => InnerSameItems items items'
  | .object fields, .object fields' => InnerSame fields fields'
  | _, _ => True

def InnerSameItems : JsonItems → JsonItems → Prop
  | .cons (.list inner) rest, .cons (.list inner') rest' => inner = inner' ∧ InnerSameItems rest rest'
  | .cons (.object fields) rest, .cons (.object fields') rest' =>
      InnerSame fields fields' ∧ InnerSameItems rest rest'
  | .cons _ rest, .cons _ rest' => InnerSameItems rest rest'
  | _, _ => True

end

mutual

theorem maskFields_eq_iff {fields fields' : JsonFields} : AlikeFields texts fields fields' →
    (texts.maskFields fields = texts.maskFields fields' ↔ InnerSame texts fields fields')
  | .nil => by simp [InnerSame]
  | .secret value value' sensitive later => by
      simp [Texts.maskFields, InnerSame, sensitive, maskFields_eq_iff later]
  | @AlikeFields.plain _ key _ _ _ _ held later => by
      by_cases sensitive : texts.isSensitive key = true <;>
        simp [Texts.maskFields, InnerSame, sensitive, maskFields_eq_iff later, maskValue_eq_iff held]

theorem maskValue_eq_iff {value value' : Json} : AlikeValue texts value value' →
    (texts.maskValue value = texts.maskValue value' ↔ InnerSameValue texts value value')
  | .scalar _ => by simp [InnerSameValue]
  | .list held => by simp [Texts.maskValue, InnerSameValue, maskItems_eq_iff held]
  | .object held => by simp [Texts.maskValue, InnerSameValue, maskFields_eq_iff held]

theorem maskItems_eq_iff {items items' : JsonItems} : AlikeItems texts items items' →
    (texts.maskItems items = texts.maskItems items' ↔ InnerSameItems texts items items')
  | .nil => by simp [InnerSameItems]
  | .cons (.scalar _) later => by simp [Texts.maskItems, InnerSameItems, maskItems_eq_iff later]
  | .cons (.list _) later => by simp [Texts.maskItems, InnerSameItems, maskItems_eq_iff later]
  | .cons (.object held) later => by
      simp [Texts.maskItems, InnerSameItems, maskItems_eq_iff later, maskFields_eq_iff held]

end

end Relations

theorem truncate_of_fits (texts : Texts) {maxBytes : Nat} {payload : Option JsonFields}
    (fits : ∀ fields ∈ payload, texts.encodedSize fields ≤ maxBytes) :
    texts.truncateFieldIfOversize maxBytes payload = payload := by
  cases payload with
  | none => rfl
  | some fields =>
    cases fields with
    | nil => rfl
    | cons => exact if_pos (fits _ rfl)

/-- Two calls that differ in sensitive values only hand on the same payloads under every cap exactly when no
secret lies in a list that is itself an item of a list. -/
theorem stored_failures_hide_secrets_iff (texts : Texts) (first second : Payloads)
    (alike : ∀ name, Rel (AlikeFields texts) (first name) (second name)) :
    (∀ caps annotate, storeFailure texts caps annotate first = storeFailure texts caps annotate second) ↔
      ∀ name, ∀ fields ∈ first name, ∀ fields' ∈ second name, InnerSame texts fields fields' := by
  constructor
  · intro same name fields here fields' there
    -- A cap that both masked payloads fit hands them on as they are.
    have equal := congrFun (same ⟨texts.encodedSize (texts.maskFields fields) +
      texts.encodedSize (texts.maskFields fields'), texts.encodedSize (texts.maskFields fields) +
      texts.encodedSize (texts.maskFields fields')⟩ id) name
    have related := alike name
    rw [mem_def.mp here, mem_def.mp there] at related
    cases related with
    | some alike =>
      refine (maskFields_eq_iff texts alike).mp ?_
      cases name <;> simpa [storeFailure, mem_def.mp here, mem_def.mp there, SizeCaps.of, truncate_of_fits] using equal
  · intro inner caps annotate
    funext name
    have masked : (first name).map texts.maskFields = (second name).map texts.maskFields := by
      have same := inner name
      have related := alike name
      revert same related
      cases first name <;> cases second name <;> intro same related <;> cases related
      · rfl
      · rename_i alike
        exact congrArg some ((maskFields_eq_iff texts alike).mpr (same _ rfl _ rfl))
    simp only [storeFailure, masked]

def plainTexts : Texts := ⟨id, fun _ => 64, fun _ => ""⟩

def requestWith (request : JsonFields) : Payloads
  | .requestData => some request
  | _ => none

def password (secret : String) : JsonFields :=
  .cons "password" (.scalar (.text secret)) .nil

theorem alike_password : AlikeFields plainTexts (password "one") (password "two") := by
  exact .secret _ _ (by decide +kernel) .nil

theorem password_is_hidden :
    storeFailure plainTexts ⟨32, 32⟩ id (requestWith (password "one")) =
      storeFailure plainTexts ⟨32, 32⟩ id (requestWith (password "two")) := by
  refine (stored_failures_hide_secrets_iff plainTexts _ _ fun name => ?_).mpr ?_ ⟨32, 32⟩ id
  · cases name with
    | requestData => exact .some alike_password
    | _ => exact .none
  · intro name fields here fields' there
    cases name with
    | requestData =>
      obtain rfl := some.inj here
      obtain rfl := some.inj there
      exact ⟨Or.inl (by decide +kernel), trivial⟩
    | _ => cases here

def listed (secret : String) : JsonFields :=
  .cons "rows" (.list (.cons (.list (.cons (.object (password secret)) .nil)) .nil)) .nil

theorem listed_password_is_stored :
    AlikeFields plainTexts (listed "one") (listed "two") ∧
      storeFailure plainTexts ⟨64, 64⟩ id (requestWith (listed "one")) .requestData = some (listed "one") ∧
      storeFailure plainTexts ⟨64, 64⟩ id (requestWith (listed "two")) .requestData = some (listed "two") ∧
      listed "one" ≠ listed "two" := by
  have plain : plainTexts.isSensitive "rows" = false := by decide +kernel
  have stored (secret : String) : storeFailure plainTexts ⟨64, 64⟩ id (requestWith (listed secret)) .requestData =
      some (listed secret) := by
    have unmasked : plainTexts.maskFields (listed secret) = listed secret := by
      simp [listed, Texts.maskFields, Texts.maskValue, Texts.maskItems, plain]
    simp only [storeFailure, requestWith, Option.map_some, unmasked, reduceCtorEq, if_false]
    exact truncate_of_fits plainTexts fun _ _ => le_refl 64
  refine ⟨?_, stored "one", stored "two", by simp [listed, password]⟩
  exact .plain (.list (.cons (.list (.cons (.object alike_password) .nil)) .nil)) .nil

end Baldur.Dlq
