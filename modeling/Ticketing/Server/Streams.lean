import Ticketing.Server.Connection

namespace Ticketing.Server

open Parsing Framing Python Commands Protocol Trace AppServer

variable {σ : Type} (execute : List String → σ → Except Error CommandResult × σ)

theorem respond_empty (result : Except Error CommandResult) : ∃ e, respond [] result = errorReply e := by
  cases result with
  | error e => exact ⟨e, rfl⟩
  | ok result => exact ⟨⟨.valueError, "empty command"⟩, rfl⟩

theorem served_empty {s : σ} {commands : List (List String)} {response : String}
    (h : .served [] response ∈ answers (serve execute) s commands) : ∃ e, response = errorReply e := by
  induction commands generalizing s with
  | nil => cases h
  | cons command commands ih =>
      rcases List.mem_cons.mp h with h | h
      · injection h with hc hr
        rw [hr, ← hc]
        exact respond_empty _
      · exact ih h

/-- Encoded commands are executed and answered one by one, however the stream is cut. -/
theorem commands_served (s : σ) {commands : List (List String)} {frames : List (List UInt8)}
    (h : List.Forall₂ Encodes commands frames) {next : List String} {frame left : List UInt8} (hn : Encodes next frame)
    (hl : left <+: frame) (hne : left ≠ frame) {chunks : List (List UInt8)} (hc : [] ∉ chunks)
    (hs : chunks.flatten = frames.flatten ++ left) :
    handleClient execute s [] chunks =
        (answers (serve execute) s commands, commands.foldl (fun s command => (execute command s).2) s, left) ∧
      (handleClient execute s [] chunks).1.map Event.command? = commands.map some ∧
      (∀ response, .served [] response ∈ (handleClient execute s [] chunks).1 → ∃ e, response = errorReply e) := by
  have hread : List.Forall₂ (Reads parseRespFrame) frames commands := h.flip.imp fun _ _ => frame_reads
  have hall := parseAll_frames parseRespFrame_consumes hread (prefix_incomplete hn hl hne)
  have hclean : Clean (parseAll RespError.isShort parseRespFrame ([] ++ chunks.flatten)).1 := by
    rw [List.nil_append, hs, hall]
    exact clean_oks commands
  have hrec := receiveAll_clean parseRespFrame_stable parseRespFrame_consumes parseAll_nil hclean
  rw [List.nil_append, hs, hall] at hrec
  rw [handleClient_eq execute hc, hrec, answers_oks, afterItems_oks]
  exact ⟨rfl, served_commands execute s commands, fun response hr => served_empty execute hr⟩

def emptyEngine : Engine := ⟨∅, fun n => n⟩

def setFrame : List UInt8 := Utf8.encode "*3\r\n$3\r\nSET\r\n$1\r\nk\r\n$4\r\n\r\n*1\r\n"

def emptyFrame : List UInt8 := Utf8.encode "*0\r\n"

def getFrame : List UInt8 := Utf8.encode "*2\r\n$3\r\nGET\r\n$1\r\nk\r\n"

theorem splitCommands_served : (handleClient Engine.execute emptyEngine []
    [setFrame.take 30, setFrame.drop 30 ++ emptyFrame ++ getFrame.take 3]).1.map Event.command? =
      [["SET", "k", "\r\n*1"], []].map some :=
  (commands_served Engine.execute emptyEngine (.cons (show Encodes ["SET", "k", "\r\n*1"] setFrame by decide +kernel)
    (.cons (show Encodes [] emptyFrame by decide +kernel) .nil)) (show Encodes ["GET", "k"] getFrame by decide +kernel)
    (List.take_prefix 3 getFrame) (by decide +kernel)
    (by decide +kernel) (by decide +kernel)).2.1

/-! ### Malformed frames -/

/-- The frames of the stream, up to the first malformed one. -/
def items (stream : List UInt8) : List (Except RespError (List String)) :=
  (parseAll RespError.isShort parseRespFrame stream).1

def WellFormed (stream : List UInt8) : Prop := Clean (items stream)

/-- The first malformed frame shows with this chunk. -/
def Spoils (before : List (List UInt8)) (chunk : List UInt8) : Prop :=
  WellFormed before.flatten ∧ ¬ WellFormed (before.flatten ++ chunk)

/-- The commands before the first malformed frame, and the reply to that frame. -/
theorem items_bad {stream : List UInt8} (h : ¬ WellFormed stream) :
    ∃ (commands : List (List String)) (e : RespError), items stream = commands.map .ok ++ [.error e] := by
  obtain ⟨commands, hall | ⟨e, hbad⟩⟩ := parseAll_items parseRespFrame_consumes stream
  · refine absurd ?_ h
    rw [WellFormed, items, hall]
    exact clean_oks commands
  · exact ⟨commands, e, hbad⟩

/-- What one cut of a stream with a malformed frame leads to. -/
theorem handleClient_bad (s : σ) {chunks : List (List UInt8)} (hc : [] ∉ chunks) (h : ¬ WellFormed chunks.flatten) :
    ∃ before chunk after, chunks = before ++ chunk :: after ∧ Spoils before chunk ∧
      handleClient execute s [] chunks =
        (answers (handleItem execute) s (items chunks.flatten) ++
            (handleClient execute (afterItems execute s (items chunks.flatten)) [] after).1,
          (handleClient execute (afterItems execute s (items chunks.flatten)) [] after).2) := by
  obtain ⟨before, chunk, after, rfl, hbefore, hchunk, heq⟩ :=
    receiveAll_bad parseRespFrame_stable parseRespFrame_consumes parseAll_nil h
  have hafter : [] ∉ after := fun hmem => hc (List.mem_append_right _ (List.mem_cons_of_mem _ hmem))
  refine ⟨before, chunk, after, rfl, ⟨hbefore, hchunk⟩, ?_⟩
  rw [handleClient_eq execute hc, handleClient_eq execute hafter, heq, answers_append, afterItems_append]
  rfl

/-- Two cuts of one stream: the same commands and replies where no frame is malformed. Where one is,
the same up to its error reply; the chunk that shows it is dropped, and the chunks after it are
served as a stream of their own. -/
theorem cuts_agree (s : σ) {chunks chunks' : List (List UInt8)} (hc : [] ∉ chunks) (hc' : [] ∉ chunks')
    (h : chunks.flatten = chunks'.flatten) :
    (WellFormed chunks.flatten → handleClient execute s [] chunks = handleClient execute s [] chunks') ∧
      (¬ WellFormed chunks.flatten → ∃ commands message before chunk after before' chunk' after',
        chunks = before ++ chunk :: after ∧ chunks' = before' ++ chunk' :: after' ∧
          Spoils before chunk ∧ Spoils before' chunk' ∧
          let events := answers (serve execute) s commands ++ [.refused (errorReply ⟨.protocolError, message⟩)]
          let t := commands.foldl (fun s command => (execute command s).2) s
          handleClient execute s [] chunks =
              (events ++ (handleClient execute t [] after).1, (handleClient execute t [] after).2) ∧
            handleClient execute s [] chunks' =
              (events ++ (handleClient execute t [] after').1, (handleClient execute t [] after').2)) := by
  refine ⟨fun hgood => ?_, fun hbad => ?_⟩
  · have hgood' : WellFormed chunks'.flatten := h ▸ hgood
    rw [handleClient_eq execute hc, handleClient_eq execute hc',
      receiveAll_clean parseRespFrame_stable parseRespFrame_consumes parseAll_nil hgood,
      receiveAll_clean parseRespFrame_stable parseRespFrame_consumes parseAll_nil hgood', h]
  · have hbad' : ¬ WellFormed chunks'.flatten := h ▸ hbad
    obtain ⟨before, chunk, after, hsplit, hspoils, heq⟩ := handleClient_bad execute s hc hbad
    obtain ⟨before', chunk', after', hsplit', hspoils', heq'⟩ := handleClient_bad execute s hc' hbad'
    obtain ⟨commands, e, hitems⟩ := items_bad hbad
    have hevents : answers (handleItem execute) s (items chunks.flatten) =
        answers (serve execute) s commands ++ [.refused (errorReply ⟨.protocolError, e.message⟩)] := by
      rw [hitems, answers_append, answers_oks]
      rfl
    have hstate : afterItems execute s (items chunks.flatten) =
        commands.foldl (fun s command => (execute command s).2) s := by
      rw [hitems, afterItems_append, afterItems_oks]
      rfl
    rw [hevents, hstate] at heq
    rw [← h, hevents, hstate] at heq'
    exact ⟨commands, e.message, before, chunk, after, before', chunk', after', hsplit, hsplit', hspoils, hspoils', heq,
      heq'⟩

/-- A stray byte, then a command, which two cuts of the stream treat differently. -/
theorem strayByte_decides : ¬ ∀ chunks chunks' : List (List UInt8), [] ∉ chunks → [] ∉ chunks' →
    chunks.flatten = chunks'.flatten →
      (handleClient Engine.execute emptyEngine [] chunks).1 = (handleClient Engine.execute emptyEngine [] chunks').1 := by
  intro h
  have heq := congrArg List.length
    (h [byteOf 'X' :: setFrame] [[byteOf 'X'], setFrame] (by decide +kernel) (by decide +kernel) (by decide +kernel))
  revert heq
  decide +kernel

theorem not_wellFormed {stream : List UInt8} {e : RespError} (h : items stream = [.error e]) : ¬ WellFormed stream := by
  intro hgood
  rw [WellFormed, h] at hgood
  exact hgood e List.mem_cons_self

/-- A stream without a malformed frame is served alike. The stray byte is answered alike, and one of its cuts
serves the command that the other drops. -/
theorem wholeChunks_agree :
    handleClient Engine.execute emptyEngine [] [setFrame ++ getFrame] =
        handleClient Engine.execute emptyEngine [] [setFrame.take 7, setFrame.drop 7, getFrame] ∧
      ∃ message, (handleClient Engine.execute emptyEngine [] [byteOf 'X' :: setFrame]).1 =
          [.refused (errorReply ⟨.protocolError, message⟩)] ∧
        (handleClient Engine.execute emptyEngine [] [[byteOf 'X'], setFrame]).1 =
          .refused (errorReply ⟨.protocolError, message⟩) ::
            (handleClient Engine.execute emptyEngine [] [setFrame]).1 := by
  constructor
  · have hitems : items [setFrame ++ getFrame].flatten = [["SET", "k", "\r\n*1"], ["GET", "k"]].map .ok := by
      decide +kernel
    have hgood : WellFormed [setFrame ++ getFrame].flatten := by
      rw [WellFormed, hitems]
      exact clean_oks _
    exact (cuts_agree Engine.execute emptyEngine (by decide +kernel) (by decide +kernel) (by decide +kernel)).1 hgood
  · have hstray : items [byteOf 'X'] = [.error (.malformed "expected RESP array")] := by decide +kernel
    have hspoilt : items [byteOf 'X' :: setFrame].flatten = [.error (.malformed "expected RESP array")] := by
      decide +kernel
    have hcuts : [byteOf 'X' :: setFrame].flatten = [[byteOf 'X'], setFrame].flatten := by decide +kernel
    obtain ⟨commands, message, before, chunk, after, before', chunk', after', hsplit, hsplit', -, hspoils', heq, heq'⟩ :=
      (cuts_agree Engine.execute emptyEngine (by decide +kernel) (by decide +kernel) hcuts).2 (not_wellFormed hspoilt)
    -- one event answers the whole first cut, so that no command comes before the error
    have hevents : (handleClient Engine.execute emptyEngine [] [byteOf 'X' :: setFrame]).1.length = 1 := by decide +kernel
    obtain rfl : commands = [] := by
      rw [heq, List.length_append, List.length_append, answers_length, List.length_singleton] at hevents
      exact List.length_eq_zero_iff.mp (by omega)
    obtain rfl : after = [] := by
      cases before <;> simp_all
    refine ⟨message, congrArg Prod.fst heq, ?_⟩
    rcases before' with _ | ⟨first, rest⟩
    · cases hsplit'
      exact congrArg Prod.fst heq'
    · obtain ⟨rfl, hrest⟩ := List.cons.inj hsplit'
      cases rest with
      | nil => exact absurd hspoils'.1 (not_wellFormed hstray)
      | cons chunk rest => simp at hrest

end Ticketing.Server
