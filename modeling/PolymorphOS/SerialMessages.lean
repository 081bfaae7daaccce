import PolymorphOS.Framing
import PolymorphOS.Keystrokes

/-! `genesis_init_task` over a whole stream: the serial line is cut into messages, and each of them is
run once, in the order in which they arrived. -/
namespace PolymorphOS

open Kernel Mfs RustStr VirtioPci Terminal

/-- A byte of the stream, what the other tasks do to the windows and the drive before it is taken
up, and what the bus answers a command that it completes. -/
structure Arrival where
  byte : UInt8
  meanwhile : List TextWindow → Kernel (List TextWindow)
  answers : PciFunction

namespace GenesisTask

/-- `screen_println!`: the text and the end of its line are written one after the other. -/
def screenPrintln (windows : List TextWindow) (out : List Char) : Except Panic (List TextWindow) :=
  [out,['\n']].foldlM writeStr windows

/-- What is printed about a file that was to be saved. -/
def savedOut (filename : List Char) : Except String Unit → List Char
  | .ok () => "\n[KERNEL] AI Response saved to ".toList ++ filename ++ "\ngenesis> ".toList
  | .error e => "\n[KERNEL] MFS SAVE FAILED: ".toList ++ e.toList ++ "\ngenesis> ".toList

section

variable (build : Profile) (toUppercase : List Char → List Char)

/-- The call that a message leads to, on the windows; the top-most one is the last. -/
def perform (answers : PciFunction) (windows : List TextWindow) :
    GenesisCall → Kernel (List TextWindow)
  | .executeCommand input =>
    match windows.getLast? with
    | none => pure windows
    | some win => do
      let win ← executeCommand build toUppercase answers {win with inputBuffer := input}
      return windows.dropLast ++ [win]
  | .saveFile filename data => do
    let r ← result (saveFile build filename data)
    ofPanic (screenPrintln windows (savedOut filename r))

/-- One turn of the loop. -/
def onArrival (state : GenesisTask × List TextWindow) (a : Arrival) :
    Kernel (GenesisTask × List TextWindow) := do
  let windows ← a.meanwhile state.2
  let (task,call) ← onByte build state.1 a.byte
  match call with
  | none => return (task,windows)
  | some call =>
    let windows ← perform build toUppercase a.answers windows call
    return (task,windows)

/-- The loop, for as long as bytes arrive. -/
def serve (state : GenesisTask × List TextWindow) (arrivals : List Arrival) :
    Kernel (GenesisTask × List TextWindow) :=
  arrivals.foldlM (onArrival build toUppercase) state

/-! ### What the stream says -/

/-- The stretches of a stream up to each backtick, and the rest. -/
abbrev stretches : List Arrival → List (List Arrival × Arrival) × List Arrival :=
  Framing.cut (·.byte = backtick)

/-- The message in a stretch of the stream: all from its first brace on. -/
abbrev message (arrivals : List Arrival) : List UInt8 :=
  Framing.message 0x7B (arrivals.map Arrival.byte)

/-- The bytes as a `String`, which has room for 2^62 of them. -/
def textOf (bytes : List UInt8) : RustString :=
  if h : (Utf8.encode (received bytes)).length < 2^63 then ⟨received bytes,h⟩ else .empty

/-- The task when it has taken up some bytes since the last backtick. -/
def after (pending : List Arrival) (payloadCount : Int32) : GenesisTask :=
  ⟨textOf (message pending),decide (message pending ≠ []),payloadCount⟩

/-- What the other tasks do while a stretch arrives. -/
def idle (windows : List TextWindow) (arrivals : List Arrival) : Kernel (List TextWindow) :=
  arrivals.foldlM (fun windows a => a.meanwhile windows) windows

/-- A complete message: the counter and the windows after it. -/
def runMessage (answers : PciFunction) (state : Int32 × List TextWindow) (json : RustString) :
    Kernel (Int32 × List TextWindow) := do
  let (payloadCount,call) ← onMessage build json state.1
  match call with
  | none => return (payloadCount,state.2)
  | some call =>
    let windows ← perform build toUppercase answers state.2 call
    return (payloadCount,windows)

/-- A stretch with its backtick: its message is run, if there is one. -/
def runStretch (state : Int32 × List TextWindow) (stretch : List Arrival × Arrival) :
    Kernel (Int32 × List TextWindow) := do
  let windows ← idle state.2 (stretch.1 ++ [stretch.2])
  if message stretch.1 = [] then return (state.1,windows)
  else runMessage build toUppercase stretch.2.answers (state.1,windows) (textOf (message stretch.1))

end

/-! ### The loop between two backticks -/

theorem length_encode_received_le (bytes : List UInt8) :
    (Utf8.encode (received bytes)).length ≤ 2 * bytes.length := by
  induction bytes with
  | nil => exact Nat.le_refl 0
  | cons byte bytes ih =>
    have hbyte : (String.utf8EncodeChar (Char.ofUInt8 byte)).length ≤ 2 := by
      rcases utf8EncodeChar_ofUInt8 byte with ⟨_,henc⟩ | ⟨_,hlen⟩
      · rw [henc]
        exact Nat.le_succ 1
      · exact hlen.le
    rw [received,List.map_cons,Utf8.encode_cons,List.length_append,List.length_cons]
    have hrest := ih
    rw [received] at hrest
    omega

theorem textOf_chars {bytes : List UInt8} (h : 2 * bytes.length < 2^63) :
    (textOf bytes).chars = received bytes := by
  rw [textOf,dif_pos ((length_encode_received_le bytes).trans_lt h)]

theorem length_message_le (arrivals : List Arrival) :
    (message arrivals).length ≤ arrivals.length := by
  have hsuffix := (List.dropWhile_suffix (l := arrivals.map Arrival.byte) (· ≠ 0x7B)).length_le
  rwa [List.length_map] at hsuffix

theorem message_append_of_eq {pending : List Arrival} (h : message pending = []) (a : Arrival) :
    message (pending ++ [a]) = Framing.message 0x7B [a.byte] := by
  rw [message,List.map_append,Framing.message_append_of_eq h]
  rfl

theorem message_append_of_ne {pending : List Arrival} (h : message pending ≠ []) (a : Arrival) :
    message (pending ++ [a]) = message pending ++ [a.byte] := by
  rw [message,List.map_append,Framing.message_append_of_ne h]
  rfl

/-- Only the message in what was taken up counts. -/
theorem after_congr {p q : List Arrival} (h : message p = message q) (payloadCount : Int32) :
    after p payloadCount = after q payloadCount := by
  rw [after,after,h]

theorem after_nil (payloadCount : Int32) : after [] payloadCount = ⟨.empty,false,payloadCount⟩ := rfl

section

variable {build : Profile} {toUppercase : List Char → List Char} {pending : List Arrival}
  {a : Arrival} {payloadCount : Int32} {windows : List TextWindow}

/-- A byte that ends nothing is taken up. -/
theorem onByte_pending (ha : a.byte ≠ backtick) (hsize : 2 * (pending.length + 1) < 2^63) :
    onByte build (after pending payloadCount) a.byte =
      pure (after (pending ++ [a]) payloadCount,none) := by
  by_cases hmsg : message pending = []
  · have hidle : (after pending payloadCount).receivingJson = false := by simp [after,hmsg]
    by_cases hopen : a.byte = 0x7B
    · have hmore : message (pending ++ [a]) = [0x7B] := by
        rw [message_append_of_eq hmsg,hopen]
        rfl
      have hbrace : Char.ofUInt8 a.byte = '{' := by rw [hopen]; rfl
      have hpush : RustString.empty.push (Char.ofUInt8 a.byte) = .ok (textOf [0x7B]) := by
        rw [hbrace]
        exact RustString.push_ok rfl
      rw [onByte,if_pos ⟨hbrace,hidle⟩,hpush,after,after,hmore]
      rfl
    · have hmore : message (pending ++ [a]) = message pending := by
        rw [message_append_of_eq hmsg,hmsg]
        exact Framing.message_of_not_mem (by simpa using Ne.symm hopen)
      have hchar : ¬(Char.ofUInt8 a.byte = '{' ∧ (after pending payloadCount).receivingJson = false) :=
        fun h => hopen (ofUInt8_injective h.1)
      rw [onByte,if_neg hchar,hidle,if_neg Bool.false_ne_true,after_congr hmore]
  · have hmore := message_append_of_ne hmsg a
    have hlength := length_message_le pending
    have hchars : (textOf (message pending ++ [a.byte])).chars =
        (textOf (message pending)).chars ++ [.ofUInt8 a.byte] := by
      rw [textOf_chars (by rw [List.length_append,List.length_singleton]; omega),
        textOf_chars (by omega),received_append]
      rfl
    have hpending (pending : List Arrival) (h : message pending ≠ []) :
        after pending payloadCount = ⟨textOf (message pending),true,payloadCount⟩ := by
      simp [after,h]
    have hne : message (pending ++ [a]) ≠ [] := by simp [hmore]
    funext s
    rw [hpending _ hmsg,hpending _ hne,hmore]
    exact onByte_collect ha hchars

/-- A backtick ends the message, if one was begun. -/
theorem onByte_backtick (hsize : 2 * (pending.length + 1) < 2^63) :
    onByte build (after pending payloadCount) backtick =
      if message pending = [] then pure (after [] payloadCount,none)
      else do
        let r ← onMessage build (textOf (message pending)) payloadCount
        return (after [] r.1,r.2) := by
  by_cases hmsg : message pending = []
  · have hidle : (after pending payloadCount).receivingJson = false := by simp [after,hmsg]
    have hchar : ¬(Char.ofUInt8 backtick = '{' ∧
        (after pending payloadCount).receivingJson = false) := fun h => absurd h.1 (by decide)
    rw [if_pos hmsg,onByte,if_neg hchar,hidle,if_neg Bool.false_ne_true,
      after_congr (q := []) (hmsg.trans rfl)]
  · have hlength := length_message_le pending
    have hreceiving : after pending payloadCount = ⟨textOf (message pending),true,payloadCount⟩ := by
      simp [after,hmsg]
    have hfit : (Utf8.encode ((textOf (message pending)).chars ++ ['`'])).length < 2^63 := by
      rw [textOf_chars (by omega),show ['`'] = received [backtick] from rfl,← received_append]
      refine (length_encode_received_le (message pending ++ [backtick])).trans_lt ?_
      rw [List.length_append,List.length_singleton]
      omega
    funext s
    rw [if_neg hmsg,hreceiving]
    exact onByte_close hfit

theorem serve_cons (state : GenesisTask × List TextWindow) (arrivals : List Arrival) :
    serve build toUppercase state (a::arrivals) = (do
      let state ← onArrival build toUppercase state a
      serve build toUppercase state arrivals) := List.foldlM_cons

/-- Between two backticks the task only takes up what arrives. -/
theorem serve_pending {arrivals : List Arrival} (h : ∀ a ∈ arrivals, a.byte ≠ backtick)
    (more : List Arrival) (hsize : 2 * (pending.length + arrivals.length) < 2^63) :
    serve build toUppercase (after pending payloadCount,windows) (arrivals ++ more) = (do
      let windows ← idle windows arrivals
      serve build toUppercase (after (pending ++ arrivals) payloadCount,windows) more) := by
  induction arrivals generalizing pending windows with
  | nil => rw [List.append_nil]; rfl
  | cons a arrivals ih =>
    obtain ⟨ha,harrivals⟩ := List.forall_mem_cons.mp h
    rw [List.length_cons] at hsize
    have hnext : 2 * ((pending ++ [a]).length + arrivals.length) < 2^63 := by
      rw [List.length_append,List.length_singleton]
      omega
    rw [List.cons_append,serve_cons,onArrival,onByte_pending ha (by omega)]
    simp only [bind_assoc,pure_bind]
    rw [idle,List.foldlM_cons,bind_assoc]
    refine bind_congr fun windows' => ?_
    rw [ih harrivals hnext,List.append_assoc]
    rfl

theorem serve_tail {arrivals : List Arrival} (h : ∀ a ∈ arrivals, a.byte ≠ backtick)
    (hsize : 2 * arrivals.length < 2^63) :
    serve build toUppercase (after [] payloadCount,windows) arrivals = (do
      let windows ← idle windows arrivals
      return (after arrivals payloadCount,windows)) := by
  have hpending : serve build toUppercase (after [] payloadCount,windows) (arrivals ++ []) = _ :=
    serve_pending h [] (by rwa [List.length_nil,Nat.zero_add])
  rwa [List.append_nil] at hpending

theorem idle_append (arrivals : List Arrival) :
    idle windows (arrivals ++ [a]) = (do
      let windows ← idle windows arrivals
      a.meanwhile windows) := by
  rw [idle,List.foldlM_append]
  simp only [List.foldlM_cons,List.foldlM_nil,bind_pure]
  rfl

/-- With a backtick the message since the last one is run. -/
theorem serve_backtick (ha : a.byte = backtick) (more : List Arrival)
    (hsize : 2 * (pending.length + 1) < 2^63) :
    serve build toUppercase (after pending payloadCount,windows) (a::more) = (do
      let windows ← a.meanwhile windows
      let state ← if message pending = [] then pure (payloadCount,windows)
        else runMessage build toUppercase a.answers (payloadCount,windows) (textOf (message pending))
      serve build toUppercase (after [] state.1,state.2) more) := by
  rw [serve_cons,onArrival,bind_assoc]
  refine bind_congr fun windows' => ?_
  rw [ha,onByte_backtick hsize]
  by_cases hmsg : message pending = []
  · simp only [if_pos hmsg,pure_bind]
  · simp only [if_neg hmsg,runMessage,bind_assoc,pure_bind]
    refine bind_congr fun r => ?_
    cases r.2 with
    | none => simp only [pure_bind]
    | some call => simp only [bind_assoc,pure_bind]

/-- A stretch without a backtick, and the backtick behind it. -/
theorem serve_stretch {arrivals : List Arrival} (h : ∀ a ∈ arrivals, a.byte ≠ backtick)
    (ha : a.byte = backtick) (more : List Arrival) (hsize : 2 * (arrivals.length + 1) < 2^63) :
    serve build toUppercase (after [] payloadCount,windows) (arrivals ++ a::more) = (do
      let state ← runStretch build toUppercase (payloadCount,windows) (arrivals,a)
      serve build toUppercase (after [] state.1,state.2) more) := by
  rw [serve_pending h _ (by rw [List.length_nil]; omega),List.nil_append,runStretch,idle_append]
  simp only [bind_assoc]
  refine bind_congr fun windows' => ?_
  rw [serve_backtick ha more hsize]
  refine bind_congr fun windows'' => ?_
  split
  · simp only [pure_bind]
  · rfl

end

/-- A byte that nothing else happens before. -/
def quiet (answers : PciFunction) (byte : UInt8) : Arrival := ⟨byte,pure,answers⟩

/-- A command that a host sends, behind some noise, and what the bus answers it. -/
structure HostCommand where
  noise : List UInt8
  line : List UInt8
  answers : PciFunction

def session (sent : List HostCommand) : List Arrival :=
  sent.flatMap fun c => (c.noise ++ (commandMessage c.line ++ [backtick])).map (quiet c.answers)

section

variable {build : Profile} {toUppercase : List Char → List Char} {payloadCount : Int32}
  {windows : List TextWindow} {answers : PciFunction}

/-- Noise is whatever has no brace in it; its backticks end nothing. -/
theorem serve_noise {noise : List UInt8} (h : 0x7B ∉ noise) (more : List Arrival) :
    serve build toUppercase (after [] payloadCount,windows) (noise.map (quiet answers) ++ more) =
      serve build toUppercase (after [] payloadCount,windows) more := by
  induction noise with
  | nil => rfl
  | cons byte noise ih =>
    obtain ⟨hbyte,hnoise⟩ : 0x7B ≠ byte ∧ 0x7B ∉ noise := by simpa using h
    rw [List.map_cons,List.cons_append,serve_cons,onArrival]
    by_cases hstop : byte = backtick
    · have hend : onByte build (after [] payloadCount) (quiet answers byte).byte =
          pure (after [] payloadCount,none) := by
        rw [show (quiet answers byte).byte = backtick from hstop,onByte_backtick (by decide),
          if_pos (by rfl)]
      rw [hend]
      exact ih hnoise
    · have hskip : message ([] ++ [quiet answers byte]) = message [] := by
        rw [message_append_of_eq rfl]
        exact Framing.message_of_not_mem fun hmem => hbyte (List.mem_singleton.mp hmem)
      rw [onByte_pending (a := quiet answers byte) hstop (by decide),after_congr hskip]
      exact ih hnoise

theorem idle_quiet (bytes : List UInt8) : idle windows (bytes.map (quiet answers)) = pure windows := by
  induction bytes with
  | nil => rfl
  | cons byte bytes ih => exact ih

theorem message_command (line : List UInt8) :
    message ((commandMessage line).map (quiet answers)) = commandMessage line := by
  have hbytes : ((commandMessage line).map (quiet answers)).map Arrival.byte =
      [] ++ commandMessage line := by
    rw [List.map_map]
    exact List.map_id _
  rw [message,hbytes]
  exact Framing.message_noise List.not_mem_nil _

theorem backtick_not_mem_message {line : List UInt8} (h : backtick ∉ line) :
    backtick ∉ commandMessage line := by
  simp only [commandMessage,List.mem_append,not_or]
  exact ⟨⟨by decide,h⟩,by decide⟩

/-- The stretch of a command runs the command in the top-most window. -/
theorem runStretch_command {line : List UInt8} (hline : 0x22 ∉ line)
    (hsize : 2 * (commandMessage line).length < 2^63) (textBuffer inputBuffer : List Char) :
    runStretch build toUppercase (payloadCount,windows ++ [⟨textBuffer,inputBuffer⟩])
        ((commandMessage line).map (quiet answers),quiet answers backtick) = (do
      let win ← executeCommand build toUppercase answers ⟨textBuffer,received line ++ ['\n']⟩
      return (payloadCount,windows ++ [win])) := by
  have hmessage : commandMessage line ≠ [] := List.cons_ne_nil _ _
  have hcall : onMessage build (textOf (commandMessage line)) payloadCount =
      pure (payloadCount,some (.executeCommand (received line ++ ['\n']))) := by
    rw [onMessage,textOf_chars hsize,contains_message,if_pos rfl,commandStr_message hline]
    rfl
  rw [runStretch,idle_append,idle_quiet,pure_bind,message_command]
  simp only [if_neg hmessage,runMessage,hcall]
  show perform build toUppercase answers (windows ++ [⟨textBuffer,inputBuffer⟩])
    (.executeCommand (received line ++ ['\n'])) >>= (fun windows => pure (payloadCount,windows)) = _
  rw [perform,List.getLast?_concat,List.dropLast_concat,bind_assoc]
  simp only [pure_bind]

theorem session_cons (c : HostCommand) (sent : List HostCommand) :
    session (c::sent) = c.noise.map (quiet c.answers) ++
      ((commandMessage c.line).map (quiet c.answers) ++
        quiet c.answers backtick :: session sent) := by
  rw [session,List.flatMap_cons,← session,List.map_append,List.map_append,List.append_assoc,
    List.append_assoc]
  rfl

end

end GenesisTask
end PolymorphOS
