import Ticketing.Lib.Collecting
import Ticketing.Protocol.RespParser

namespace Ticketing.Protocol

open Parsing Framing Trace Python AppServer

/-! ### `RespStreamParser` -/

/-- The loop of `feed_data`. Every frame consumes a byte, so the length of the buffer bounds their number. -/
def feedLoop : Nat → List (List String) → List UInt8 → Except RespError (List (List String)) × List UInt8
  | 0, commands, buffer => (.ok commands, buffer)
  | n + 1, commands, buffer =>
    if buffer = [] then (.ok commands, buffer)
    else match parseRespFrame buffer with
      | .error (.incomplete _) => (.ok commands, buffer)
      | .error (.malformed message) => (.error (.malformed message), buffer)
      | .ok (command, rest) => feedLoop n (commands ++ [command]) rest

/-- The commands of the call, or its exception, and the buffer that it leaves. -/
def feedData (buffer chunk : List UInt8) : Except RespError (List (List String)) × List UInt8 :=
  feedLoop (buffer ++ chunk).length [] (buffer ++ chunk)

/-- What the calls of `feed_data` on the chunks come to. -/
def feedAll (chunks : List (List UInt8)) : List (Except RespError (List (List String))) := answers feedData [] chunks

/-- Bytes that wait for more. -/
def Waits (bs : List UInt8) : Prop := ∃ e, parseRespFrame bs = .error e ∧ e.isShort = true

theorem feedLoop_eq (n : Nat) (commands : List (List String)) (buffer : List UInt8) :
    feedLoop n commands buffer = collect RespError.isShort parseRespFrame n commands buffer := by
  induction n generalizing commands buffer with
  | zero => rfl
  | succ n ih =>
      rw [feedLoop, collect]
      cases buffer with
      | nil => rfl
      | cons b bs =>
          rw [if_neg (List.cons_ne_nil b bs), if_neg (by simp)]
          cases h : parseRespFrame (b :: bs) with
          | error e => cases e <;> rfl
          | ok r => exact ih _ _

theorem feedData_eq : feedData = feed RespError.isShort parseRespFrame := by
  funext buffer chunk
  exact feedLoop_eq _ _ _

theorem waits_nil : Waits [] := ⟨_, rfl, rfl⟩

/-- The commands in front of a malformed frame all arrive exactly where some call ends after the last of them and
before the malformed frame can be told. -/
theorem feedAll_delivers_iff {commands : List (List String)} {frames : List (List UInt8)}
    (h : List.Forall₂ Encodes commands frames) {bad : List UInt8} {message : String}
    (hbad : parseRespFrame bad = .error (.malformed message)) {chunks : List (List UInt8)}
    (hchunks : chunks.flatten = frames.flatten ++ bad) :
    Delivered commands (feedAll chunks) ↔
      ∃ before after w, chunks = before ++ after ∧ before.flatten = frames.flatten ++ w ∧ Waits w := by
  have hread : List.Forall₂ (Reads parseRespFrame) frames commands := h.flip.imp fun _ _ => frame_reads
  rw [feedAll, feedData_eq]
  exact delivered_iff parseRespFrame_stable parseRespFrame_consumes waits_nil hread hbad rfl hchunks

def pingFrame : List UInt8 := Utf8.encode "*1\r\n$4\r\nPING\r\n"

def notArray : List UInt8 := Utf8.encode "PING\r\n"

theorem laterChunk_delivers : Delivered [["PING"]] (feedAll [pingFrame.take 9, pingFrame.drop 9, notArray]) := by
  have hbad : parseRespFrame notArray = .error (.malformed "expected RESP array") := by decide +kernel
  refine (feedAll_delivers_iff (.cons (show Encodes ["PING"] pingFrame by decide +kernel) .nil) hbad
    (by decide +kernel)).mpr ⟨[pingFrame.take 9, pingFrame.drop 9], [notArray], [], rfl, ?_, waits_nil⟩
  decide +kernel

theorem sameChunk_loses : ¬ ∀ (commands : List (List String)) (frames : List (List UInt8)),
    List.Forall₂ Encodes commands frames → ∀ (bad : List UInt8) (message : String),
      parseRespFrame bad = .error (.malformed message) → ∀ chunks : List (List UInt8),
        chunks.flatten = frames.flatten ++ bad → Delivered commands (feedAll chunks) := by
  intro h
  have hbad : parseRespFrame notArray = .error (.malformed "expected RESP array") := by decide +kernel
  obtain ⟨parts, e, after, hres, hflat, _⟩ := h [["PING"]] [pingFrame]
    (.cons (show Encodes ["PING"] pingFrame by decide +kernel) .nil) notArray _ hbad [pingFrame ++ notArray]
    (by decide +kernel)
  have hlost : feedAll [pingFrame ++ notArray] = [.error (.malformed "expected RESP array")] := by decide +kernel
  rw [hlost] at hres
  cases parts with
  | nil => cases hflat
  | cons part parts => cases hres

end Ticketing.Protocol
