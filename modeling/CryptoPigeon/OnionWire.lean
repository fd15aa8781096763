import CryptoPigeon.HttpHead
import CryptoPigeon.OnionListener
import Mathlib.Tactic.Common

/-! # A call from one phone to another over the onion

`TorOnionTransport.request` and `receive` as they write and read the two streams of the connection
behind the proxy. The host of the listener is `OnionListener.nativeReceive`. -/
namespace OnionWire

open HttpHead
open OnionListener (Content Database Java Listener Reply nativeContentOf nativeReceive)

/-- What the caller has signed and is about to write. -/
structure Call where
  method : Text
  path : Text
  onion : Text
  deviceId : Text
  time : Nat
  nonce : Text
  signature : Text
  body : String
  graphic : ∀ t ∈ [method, path, onion, deviceId, nonce, signature], ∀ c ∈ t, graphic c = true
  short : method.length + path.length + onion.length + deviceId.length + nonce.length +
    signature.length ≤ 4096
  clock : time < 2 ^ 63
  fits : body.toUTF8.data.size ≤ 768 * 1024

def bytesOf (text : String) : Bytes := text.toUTF8.data.toList

def decimal (n : Nat) : Text := Nat.toDigits 10 n

section Write

theorem digit_graphic {c : Char} (h : c.isDigit = true) : graphic c = true := by
  simp only [Char.isDigit, Bool.and_eq_true, decide_eq_true_eq, ge_iff_le] at h
  obtain ⟨hlo, hhi⟩ := h
  have hlo : 48 ≤ c.toNat := hlo
  have hhi : c.toNat ≤ 57 := hhi
  simp only [graphic, Bool.and_eq_true, decide_eq_true_eq]
  omega

theorem decimal_graphic (n : Nat) : ∀ c ∈ decimal n, graphic c = true :=
  fun c hc => digit_graphic (List.all_eq_true.mp (digits_all n) c hc)

end Write

variable (call : Call)

theorem Call.seen {t : Text} (h : t ∈ [call.method, call.path, call.onion, call.deviceId,
    call.nonce, call.signature]) : ∀ c ∈ t, HttpHead.graphic c = true := call.graphic t h

def Call.fields : List Field :=
  [.word "Host".toList call.onion rfl (call.seen (by simp)),
    .fixed "Content-Type" "application/json" rfl,
    .word "Content-Length".toList (decimal (bytesOf call.body).length) rfl (decimal_graphic _),
    .word "X-Pigeon-Sender".toList call.deviceId rfl (call.seen (by simp)),
    .word "X-Pigeon-Time".toList (decimal call.time) rfl (decimal_graphic _),
    .word "X-Pigeon-Nonce".toList call.nonce rfl (call.seen (by simp)),
    .word "X-Pigeon-Signature".toList call.signature rfl (call.seen (by simp)),
    .fixed "Connection" "close" rfl]

/-- What the caller writes once the proxy has connected it. -/
def Call.write : Bytes :=
  writeHead [call.method, call.path, "HTTP/1.1".toList] call.fields ++ bytesOf call.body

/-- What the signature is over. -/
def Call.content : Content :=
  ⟨String.ofList call.deviceId, call.time, String.ofList call.nonce, String.ofList call.method,
    String.ofList call.path, call.body⟩

/-- The request that the caller means. -/
def Call.request : OnionListener.Request where
  method := String.ofList call.method
  path := String.ofList call.path
  sender := some (String.ofList call.deviceId)
  time := some (String.ofList (decimal call.time))
  nonce := some (String.ofList call.nonce)
  signature := some (String.ofList call.signature)
  transferEncoding := false
  chunks := [bytesOf call.body]

/-- What the listener makes of the bytes of a connection. -/
inductive Heard where
  | nothing
  | refused
  | request (r : OnionListener.Request)

def field (name : String) (fs : Fields) : Option Text := fs.lookup name.toList

/-- The head of a request or of an answer. -/
def headOf (bytes : Bytes) : Option (Text × Fields × Bytes) := head 8192 16384 bytes

/-- As many bytes as the head announces. -/
def bodyOf (missing : Int) (limit : Nat) (fs : Fields) (rest : Bytes) : Option Bytes :=
  ((field "content-length" fs).elim (some missing) parseInt).bind fun size =>
    if size < 0 ∨ (limit : Int) < size then none else (take size.toNat rest).map Prod.fst

/-- `receive` up to its host. -/
def heard (bytes : Bytes) : Heard :=
  if line 8192 [] bytes = .ok (none, []) then .nothing
  else
    match headOf bytes with
    | none => .refused
    | some (first, fs, rest) =>
      match split ' ' first with
      | [method, path, _] =>
        match bodyOf 0 (768 * 1024) fs rest with
        | none => .refused
        | some body =>
          .request
            { method := String.ofList method
              path := String.ofList path
              sender := (field "x-pigeon-sender" fs).map String.ofList
              time := (field "x-pigeon-time" fs).map String.ofList
              nonce := (field "x-pigeon-nonce" fs).map String.ofList
              signature := (field "x-pigeon-signature" fs).map String.ofList
              transferEncoding := (field "transfer-encoding" fs).isSome
              chunks := [body] }
      | _ => .refused

def okFields (length : Nat) : List Field :=
  [.fixed "Content-Type" "application/json" rfl,
    .word "Content-Length".toList (decimal length) rfl (decimal_graphic _),
    .fixed "Cache-Control" "no-store" rfl,
    .fixed "Connection" "close" rfl]

def refusedFields : List Field :=
  [.fixed "Content-Length" "0" rfl,
    .fixed "Connection" "close" rfl]

/-- `text` is the answer as JSON. -/
def reply (text : Reply → Bytes) : Except String Reply → Bytes
  | .ok r =>
    writeHead ["HTTP/1.1".toList, "200".toList, "OK".toList] (okFields (text r).length) ++ text r
  | .error _ =>
    writeHead ["HTTP/1.1".toList, "403".toList, "Forbidden".toList] refusedFields

/-- `receive`: what is written to the socket, and the database. -/
def listen (J : Java) (text : Reply → Bytes) (L : Listener) (d : Database) (bytes : Bytes) :
    Bytes × Database :=
  match heard bytes with
  | .nothing => ([], d)
  | .refused => (reply text (.error "TOR_REQUEST_FAILED"), d)
  | .request r =>
    let served := nativeReceive J r L d
    (reply text served.1, served.2)

/-- `HTTP/1\.[01] 200 .*`. -/
def accepts (status : Text) : Bool :=
  "HTTP/1.1 200 ".toList.isPrefixOf status || "HTTP/1.0 200 ".toList.isPrefixOf status

/-- The answer as the caller reads it; `none` where `request` throws. -/
def hear (bytes : Bytes) : Option Bytes :=
  (headOf bytes).bind fun (status, fs, rest) =>
    if accepts status then bodyOf (-1) (192 * 1024) fs rest else none

section Proofs

variable {fs : List Field} {ws : List Text} {rest : Bytes}

theorem headOf_write (hwords : ∀ w ∈ ws, ∀ c ∈ w, HttpHead.graphic c = true)
    (hfirst : ([' '].intercalate ws).length ≤ 8192)
    (hshort : (fs.map fun f => f.text.length).sum ≤ 8192)
    (hnodup : (fs.map fun f => lower f.name).Nodup) :
    headOf (writeHead ws fs ++ rest) = some ([' '].intercalate ws, fs.map Field.read, rest) :=
  head_write hwords hfirst (text_short hshort) (by omega) hnodup

theorem bodyOf_write {body : Bytes} {missing : Int} {limit : Nat} {found : Fields}
    (hfield : field "content-length" found = some (decimal body.length))
    (hlimit : body.length ≤ limit) (hlimit32 : limit < 2 ^ 31) :
    bodyOf missing limit found (body ++ rest) = some body := by
  have hparse : parseInt (decimal body.length) = some (body.length : Int) :=
    parseInt_digits (by omega)
  rw [bodyOf, hfield]
  simp [hparse, take, hlimit]

theorem decimal_length {n : Nat} (h : n < 2 ^ 63) : (decimal n).length ≤ 19 :=
  (Nat.length_toDigits_le_iff (by decide) (by decide)).mpr (by omega)

theorem Call.names : call.fields.map (fun f => lower f.name) =
    ["host", "content-type", "content-length", "x-pigeon-sender", "x-pigeon-time",
      "x-pigeon-nonce", "x-pigeon-signature", "connection"].map String.toList := rfl

theorem Call.fields_short : (call.fields.map fun f => f.text.length).sum ≤ 8192 := by
  have htime := decimal_length call.clock
  have hlength : (decimal (bytesOf call.body).length).length ≤ 19 := by
    have := call.fits
    exact decimal_length (by simp only [bytesOf, Array.length_toList]; omega)
  have hshort := call.short
  simp [Call.fields, Field.text, Field.word, Field.fixed]
  omega

theorem Call.heard (extra : Bytes) : heard (call.write ++ extra) = .request call.request := by
  have hwords : ∀ w ∈ [call.method, call.path, "HTTP/1.1".toList], ∀ c ∈ w,
      HttpHead.graphic c = true := by
    intro w hw
    simp only [List.mem_cons, List.not_mem_nil, or_false] at hw
    rcases hw with rfl | rfl | rfl
    · exact call.seen (by simp)
    · exact call.seen (by simp)
    · exact List.all_eq_true.mp rfl
  have hlast : split ' ' ([' '].intercalate [call.method, call.path, "HTTP/1.1".toList]) =
      [call.method, call.path, "HTTP/1.1".toList] :=
    split_words hwords (by simp) (by simp)
  have hhead : headOf (call.write ++ extra) =
      some ([' '].intercalate [call.method, call.path, "HTTP/1.1".toList],
        call.fields.map Field.read, bytesOf call.body ++ extra) := by
    have hshort := call.short
    rw [Call.write, List.append_assoc]
    refine headOf_write hwords ?_ call.fields_short ?_
    · simp [List.intercalate_cons_cons]
      omega
    · rw [call.names]
      decide
  have hbody : bodyOf 0 (768 * 1024) (call.fields.map Field.read) (bytesOf call.body ++ extra) =
      some (bytesOf call.body) :=
    bodyOf_write rfl (by simpa [bytesOf] using call.fits) (by decide)
  have hsome : line 8192 [] (call.write ++ extra) ≠ .ok (none, []) := by
    intro hnone
    rw [headOf, head, hnone] at hhead
    cases hhead
  rw [OnionWire.heard, if_neg hsome, hhead]
  simp only [hlast, hbody]
  rfl

theorem okFields_short {length : Nat} (h : length ≤ 192 * 1024) :
    ((okFields length).map fun f => f.text.length).sum ≤ 8192 := by
  have hlength : (decimal length).length ≤ 19 := decimal_length (by omega)
  simp [okFields, Field.text, Field.word, Field.fixed]
  omega

theorem hear_reply (text : Reply → Bytes) (r : Reply) (h : (text r).length ≤ 192 * 1024)
    (more : Bytes) : hear (reply text (.ok r) ++ more) = some (text r) := by
  have hhead : headOf (reply text (.ok r) ++ more) =
      some ([' '].intercalate ["HTTP/1.1".toList, "200".toList, "OK".toList],
        (okFields (text r).length).map Field.read, text r ++ more) := by
    rw [reply, List.append_assoc]
    refine headOf_write (all_graphic rfl) (by decide) (okFields_short h) ?_
    have hnames : (okFields (text r).length).map (fun f => lower f.name) =
        ["content-type", "content-length", "cache-control", "connection"].map String.toList := rfl
    rw [hnames]
    decide
  have haccepts : accepts ([' '].intercalate ["HTTP/1.1".toList, "200".toList, "OK".toList]) =
    true := rfl
  rw [hear, hhead, Option.bind_some]
  simp only [haccepts, if_true]
  exact bodyOf_write rfl h (by decide)

theorem hear_refusal (text : Reply → Bytes) (e : String) (more : Bytes) :
    hear (reply text (.error e) ++ more) = none := by
  have hhead : headOf (reply text (.error e) ++ more) =
      some ([' '].intercalate ["HTTP/1.1".toList, "403".toList, "Forbidden".toList],
        refusedFields.map Field.read, more) :=
    headOf_write (all_graphic rfl) (by decide) (by decide) (by decide)
  rw [hear, hhead]
  rfl

end Proofs

/-- A call and its answer, with what else may follow them on the two streams. -/
def exchange (J : Java) (text : Reply → Bytes) (L : Listener) (d : Database) (sent more : Bytes) :
    Option Bytes × Database :=
  let answered := listen J text L d (call.write ++ sent)
  (hear (answered.1 ++ more), answered.2)

def answerOf (text : Reply → Bytes) : Except String Reply → Option Bytes
  | .ok r => some (text r)
  | .error _ => none

/-- The host is asked for what the caller has signed, and the caller is told what the host has
answered, as if there were no wire. -/
theorem call_transparent (J : Java) (text : Reply → Bytes) (L : Listener) (d : Database)
    (sent more : Bytes) (hlong : J.parseLong (String.ofList (decimal call.time)) = some call.time)
    (hutf8 : J.toUtf8 (bytesOf call.body) = call.body)
    (htext : ∀ r, (nativeReceive J call.request L d).1 = .ok r → (text r).length ≤ 192 * 1024) :
    nativeContentOf J call.request = some call.content ∧
    call.request.signature = some (String.ofList call.signature) ∧
    exchange call J text L d sent more =
      (answerOf text (nativeReceive J call.request L d).1,
        (nativeReceive J call.request L d).2) := by
  refine ⟨?_, rfl, ?_⟩
  · simp [nativeContentOf, Call.request, hlong, hutf8, Call.content]
  · rw [exchange, listen, call.heard sent]
    cases hserved : (nativeReceive J call.request L d).1 with
    | ok r => simp [hserved, answerOf, hear_reply text r (htext r hserved) more]
    | error e => simp [hserved, answerOf, hear_refusal text e more]

section Example

def post : Call where
  method := "POST".toList
  path := "/p2p/v1/envelopes".toList
  onion := List.replicate 56 'a' ++ ".onion".toList
  deviceId := "alice".toList
  time := 1000
  nonce := List.replicate 32 '0'
  signature := "by-alice".toList
  body := "packet"
  graphic := all_graphic rfl
  short := by decide
  clock := by decide
  fits := by decide

def accepted (_ : Reply) : Bytes := "\x7b\"ok\":true,\"accepted\":true\x7d".toList.map byteOf

/-- Alice's envelope over a stream that goes on afterwards. -/
theorem post_answered :
    (exchange post OnionListener.java accepted OnionListener.bob OnionListener.pinned [13, 10]
      []).1 = some (accepted .accepted) := by
  have hserved : (nativeReceive OnionListener.java post.request OnionListener.bob
      OnionListener.pinned).1 = .ok .accepted := rfl
  have hshort : (accepted .accepted).length ≤ 192 * 1024 := by decide
  have hcall := call_transparent post OnionListener.java accepted OnionListener.bob
    OnionListener.pinned [13, 10] [] rfl rfl fun _ _ => hshort
  rw [hcall.2.2, hserved]
  rfl

end Example

end OnionWire
