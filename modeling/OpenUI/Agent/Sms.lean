import OpenUI.Json

/-!
# `OpenUI.Agent.Sms`: sending a message

`agent/src/sms.rs`: the recipient and the text of a message are checked, and the text is passed to
the firmware as hexadecimal digits, four for each character.
-/

set_option autoImplicit false

namespace OpenUI.Agent.Sms

open OpenUI.Text OpenUI.Json

structure SmsSendRequest where
  number : String
  message : String

/-- `validate_recipient`. -/
def validateRecipient (number : String) : Except String Unit :=
  if number = "" ∨ 32 < number.utf8ByteSize ∨
      !number.toList.all fun c => isAsciiDigit c || c == '+' || c == '*' || c == '#' then
    .error "recipient must contain only digits, +, * or # and be at most 32 characters"
  else .ok ()

/-- `format!("{:04X}", character as u32)`. -/
def hexCode (n : Nat) : List Char :=
  let digits := (Nat.toDigits 16 n).map Char.toUpper
  List.replicate (4 - digits.length) '0' ++ digits

/-- `encode_message`. -/
def encodeMessage (message : String) : String :=
  String.ofList (message.toList.flatMap fun c => hexCode c.toNat)

/-- `GSM7`, a conservative subset of GSM 03.38. -/
def gsm7 : String :=
  "@£$¥èéùìòÇ\nØø\rÅåΔ_ΦΓΛΩΠΨΣΘΞ ÆæßÉ !\"#¤%&'()*+,-./0123456789:;<=>?¡" ++
    "ABCDEFGHIJKLMNOPQRSTUVWXYZÄÖÑÜ§¿abcdefghijklmnopqrstuvwxyzäöñüà^\x7b\x7d\\[~]|€"

/-- `encode_type`. -/
def encodeType (message : String) : String :=
  if message.toList.all fun c => gsm7.toList.contains c then "GSM7_default" else "UNICODE"

/-- The refusal of a text. -/
def messageError : String := "message must contain 1 to 160 characters"

/-- `sms_send` up to its call: what the firmware is asked to send at `time`, or the refusal. -/
def smsPayload (request : SmsSendRequest) (time : Except String String) :
    Except (Nat × String) Value :=
  match validateRecipient request.number with
  | .error e => .error (400, e)
  | .ok () =>
    let length := request.message.toList.length
    if length = 0 ∨ 160 < length ∨ request.message.toList.any (·.toNat == 0) then
      .error (400, messageError)
    else match time with
      | .error e => .error (500, e)
      | .ok time => .ok (.obj [("number", .str request.number), ("sms_time", .str time),
          ("message_body", .str (encodeMessage request.message)), ("id", .str "-1"),
          ("encode_type", .str (encodeType request.message))])

end OpenUI.Agent.Sms
