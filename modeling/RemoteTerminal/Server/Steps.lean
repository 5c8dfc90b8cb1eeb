import RemoteTerminal.Server.Threads

/-! Everything one step of a server thread can do, case by case: the program counter it
starts from, the result it was given, its call, and the thread and the memory after it. -/
namespace RemoteTerminal
open ByteStrings

namespace SocketListen

inductive Steps (maxClients : Nat) (s : Slot) (current : Nat) :
    Pc → Result → Call → Pc → Slot → Nat → Prop where
  | listen : Steps maxClients s current .listen .done .memory (.scan 0) s current
  | full {i} (beyond : maxClients < i) : Steps maxClients s current (.scan i) .done .memory .listen s current
  | accepted {i n} (inside : i ≤ maxClients) (free : s.client = 0) :
      Steps maxClients s current (.scan i) (.descriptor n) .accept (.reset i) {s with client := n} current
  | refused {i} (inside : i ≤ maxClients) (free : s.client = 0) :
      Steps maxClients s current (.scan i) .failed .accept (.invalid i) {s with client := -1} current
  | occupied {i} (inside : i ≤ maxClients) (busy : s.client ≠ 0) :
      Steps maxClients s current (.scan i) .done .memory (.scan (i+1)) s current
  | invalid {i} : Steps maxClients s current (.invalid i) .done .memory .listen {s with client := 0} current
  | reset {i} : Steps maxClients s current (.reset i) .done .memory (.publish i)
      {s with console.exitCode := 0} current
  | publish {i} : Steps maxClients s current (.publish i) .done .memory (.create i) s i
  | created {i} : Steps maxClients s current (.create i) .done .createClient (.scan (i+1)) s current
  | createFailed {i} : Steps maxClients s current (.create i) .failed .createClient (.scan (i+1)) s current

theorem steps {maxClients pc s current r call pc' s' current'}
    (h : step maxClients pc s current r = some (call,pc',s',current')) :
    Steps maxClients s current pc r call pc' s' current' := by
  cases pc with
  | scan i =>
    simp only [step] at h
    split at h
    · cases r <;> simp only [reduceCtorEq,Option.some.injEq,Prod.mk.injEq] at h
      obtain ⟨rfl,rfl,rfl,rfl⟩ := h
      exact .full (by assumption)
    · have inside : i ≤ maxClients := by omega
      split at h <;> cases r <;> simp only [reduceCtorEq,Option.some.injEq,Prod.mk.injEq] at h
      · obtain ⟨rfl,rfl,rfl,rfl⟩ := h; exact .refused inside (by assumption)
      · obtain ⟨rfl,rfl,rfl,rfl⟩ := h; exact .accepted inside (by assumption)
      · obtain ⟨rfl,rfl,rfl,rfl⟩ := h; exact .occupied inside (by assumption)
  | _ =>
    cases r <;> simp only [step,reduceCtorEq,Option.some.injEq,Prod.mk.injEq] at h
    all_goals obtain ⟨rfl,rfl,rfl,rfl⟩ := h; constructor

end SocketListen

namespace NewClient

inductive Steps (host : Host) (t : Thread) (s : Slot) : Result → Call → Thread → Slot → Prop where
  | enter {cwd} (at_ : t.pc = .enter) : Steps host t s (.path cwd) .readlink
      {t with pc := .receive,currentDirectory := cwd}
      {s with console := {s.console with
        directory := cwd,socketID := t.socketID,username := host.username,hostname := host.hostname}}
  | readMessage {r p} (at_ : t.pc = .receive) (open_ : r.bytesReceived ≠ 0)
      (message : branch r.sPacket = .message p) :
      Steps host t s (.received r) (.recv s.client) {t with pc := .message p} s
  | readCancel {r} (at_ : t.pc = .receive) (open_ : r.bytesReceived ≠ 0) (cancel : branch r.sPacket = .cancel) :
      Steps host t s (.received r) (.recv s.client) {t with pc := .cancel} s
  | readOther {r} (at_ : t.pc = .receive) (open_ : r.bytesReceived ≠ 0)
      (other : branch r.sPacket = .close false) :
      Steps host t s (.received r) (.recv s.client) {t with pc := .receive} s
  | readEnd {r} (at_ : t.pc = .receive)
      (ends : r.bytesReceived = 0 ∨ branch r.sPacket = .close true ∨ branch r.sPacket = .reject) :
      Steps host t s (.received r) (.recv s.client) {t with pc := .leave} s
  | ignored {p} (at_ : t.pc = .message p) (exit : s.console.exitCode ≠ 0) :
      Steps host t s .done .memory {t with pc := .receive} s
  | refused {p} (at_ : t.pc = .message p) (stay : s.console.exitCode = 0) (denied : refused host p = true) :
      Steps host t s .done .memory {t with pc := .refuse} s
  | changes {p} (at_ : t.pc = .message p) (stay : s.console.exitCode = 0) (allowed : refused host p = false)
      (change : changesDirectory p = true) : Steps host t s .done .memory {t with pc := .changeDirectory p} s
  | routed {p} (at_ : t.pc = .message p) (stay : s.console.exitCode = 0) (allowed : refused host p = false)
      (other : changesDirectory p = false) : Steps host t s .done .memory {t with pc := .route p} s
  | refuse (at_ : t.pc = .refuse) :
      Steps host t s .done (.send s.client (.frame refusalText)) {t with pc := .finish true} s
  | changed {p} (at_ : t.pc = .changeDirectory p) : Steps host t s .done
      (.chdir (cString (changeTarget host t.currentDirectory s.console.directory p)))
      {t with pc := .readDirectory p,
              currentDirectory := changeTarget host t.currentDirectory s.console.directory p} s
  | unchanged {p} (at_ : t.pc = .changeDirectory p) : Steps host t s .failed
      (.chdir (cString (changeTarget host t.currentDirectory s.console.directory p)))
      {t with pc := .setCommand p,
              currentDirectory := changeTarget host t.currentDirectory s.console.directory p} s
  | readDirectory {p cwd} (at_ : t.pc = .readDirectory p) : Steps host t s (.path cwd) .getcwd
      {t with pc := .setCommand p} {s with console.directory := cwd}
  | setCommand {p} (at_ : t.pc = .setCommand p) : Steps host t s .done .memory
      {t with pc := .prompt} {s with console.command := p}
  | prompt (at_ : t.pc = .prompt) : Steps host t s .done (.send s.client (.frame (promptText s.console)))
      {t with pc := .returnDirectory} s
  | returnDirectory {r} (at_ : t.pc = .returnDirectory) (outcome : r = .done ∨ r = .failed) :
      Steps host t s r (.chdir (cString s.console.directory)) {t with pc := .finish true} s
  | answered (at_ : t.pc = .finish true) : Steps host t s .done (.send s.client .endOfTransmission)
      {t with pc := .receive} s
  | abandoned (at_ : t.pc = .finish false) : Steps host t s .done (.send s.client .endOfTransmission)
      {t with pc := .leave} s
  | follow {p} (at_ : t.pc = .route p) (active : s.console.pipeActive = true) :
      Steps host t s .done .memory {t with pc := .deposit p} s
  | fresh {p} (at_ : t.pc = .route p) (idle : s.console.pipeActive = false) :
      Steps host t s .done .memory {t with pc := .launch p} s
  | launch {p} (at_ : t.pc = .launch p) :
      Steps host t s .done .memory {t with pc := .openOutput} {s with console.command := p}
  | openOutput {r w} (at_ : t.pc = .openOutput) : Steps host t s (.descriptors r w) .pipe
      {t with pc := .openInput} {s with console.pipeChildToParent := (r,w)}
  | noOutput (at_ : t.pc = .openOutput) : Steps host t s .failed .pipe {t with pc := .receive} s
  | openInput {r w} (at_ : t.pc = .openInput) : Steps host t s (.descriptors r w) .pipe
      {t with pc := .activate} {s with console.pipeParentToChild := (r,w)}
  | noInput (at_ : t.pc = .openInput) : Steps host t s .failed .pipe {t with pc := .receive} s
  | activate (at_ : t.pc = .activate) :
      Steps host t s .done .memory {t with pc := .create} {s with console.pipeActive := true}
  | created {k} (at_ : t.pc = .create) : Steps host t s (.thread k) .createConsole
      {t with pc := .receive,newConsoleThread := some k} s
  | notCreated (at_ : t.pc = .create) : Steps host t s .failed .createConsole {t with pc := .createFailed} s
  | createFailed (at_ : t.pc = .createFailed) : Steps host t s .done
      (.send s.client (.frame createFailedText)) {t with pc := .finish false} s
  | deposit {p} (at_ : t.pc = .deposit p) :
      Steps host t s .done .memory {t with pc := .flag} {s with console.nextCommand := p ++ [10]}
  | flag (at_ : t.pc = .flag) :
      Steps host t s .done .memory {t with pc := .receive} {s with console.hasNextCommand := true}
  | cancel (at_ : t.pc = .cancel) :
      Steps host t s .done .memory {t with pc := .join} {s with console.exitCode := 1}
  | join (at_ : t.pc = .join) : Steps host t s .done (.join t.newConsoleThread) {t with pc := .receive} s
  | leaveInvalid (at_ : t.pc = .leave) (invalid : s.client = -1) :
      Steps host t s .done .memory {t with pc := .freeSlot} s
  | shutDown (at_ : t.pc = .leave) (valid : s.client ≠ -1) :
      Steps host t s .done (.shutdown s.client) {t with pc := .closeSocket} s
  | notShutDown (at_ : t.pc = .leave) (valid : s.client ≠ -1) :
      Steps host t s .failed (.shutdown s.client) {t with pc := .freeSlot} s
  | closeSocket (at_ : t.pc = .closeSocket) :
      Steps host t s .done (.close s.client) {t with pc := .freeSlot} s
  | freeSlot (at_ : t.pc = .freeSlot) :
      Steps host t s .done .memory {t with pc := .exit} {s with client := 0}
  | exit (at_ : t.pc = .exit) : Steps host t s .done .memory {t with pc := .done} s

theorem steps {host t s r call t' s'} (h : step host t s r = some (call,t',s')) :
    Steps host t s r call t' s' := by
  cases at_ : t.pc with
  | receive =>
    cases r <;> simp only [step,at_,reduceCtorEq,Option.some.injEq,Prod.mk.injEq] at h
    rename_i r
    obtain ⟨rfl,rfl,rfl⟩ := h
    unfold afterReceive
    split
    · exact .readEnd at_ (.inl (by assumption))
    · split
      · exact .readMessage at_ (by assumption) (by assumption)
      · exact .readCancel at_ (by assumption) (by assumption)
      · rename_i ends closes
        cases ends with
        | true => exact .readEnd at_ (.inr (.inl closes))
        | false => exact .readOther at_ (by assumption) closes
      · exact .readEnd at_ (.inr (.inr (by assumption)))
  | message p =>
    cases r <;> simp only [step,at_,reduceCtorEq,Option.some.injEq,Prod.mk.injEq] at h
    obtain ⟨rfl,rfl,rfl⟩ := h
    unfold afterMessage
    split
    · exact .ignored at_ (by assumption)
    · rename_i stay
      have stay : s.console.exitCode = 0 := by simpa using stay
      split
      · exact .refused at_ stay (by assumption)
      · rename_i allowed
        split
        · exact .changes at_ stay (by simpa using allowed) (by assumption)
        · rename_i other
          exact .routed at_ stay (by simpa using allowed) (by simpa using other)
  | route p =>
    cases active : s.console.pipeActive <;> cases r <;>
      simp only [step,at_,active,reduceCtorEq,Option.some.injEq,Prod.mk.injEq] at h
    all_goals obtain ⟨rfl,rfl,rfl⟩ := h
    · exact .fresh at_ active
    · exact .follow at_ active
  | leave =>
    by_cases invalid : s.client = -1 <;> cases r <;>
      simp only [step,at_,invalid,if_true,if_false,reduceCtorEq,Option.some.injEq,Prod.mk.injEq] at h
    all_goals obtain ⟨rfl,rfl,rfl⟩ := h
    · exact .leaveInvalid at_ invalid
    · exact .shutDown at_ invalid
    · exact .notShutDown at_ invalid
  | returnDirectory =>
    cases r <;> simp only [step,at_,reduceCtorEq,Option.some.injEq,Prod.mk.injEq] at h
    all_goals obtain ⟨rfl,rfl,rfl⟩ := h
    · exact .returnDirectory at_ (.inl rfl)
    · exact .returnDirectory at_ (.inr rfl)
  | finish again =>
    cases again <;> cases r <;> simp only [step,at_,reduceCtorEq,Option.some.injEq,Prod.mk.injEq] at h
    all_goals obtain ⟨rfl,rfl,rfl⟩ := h
    · exact .abandoned at_
    · exact .answered at_
  | _ =>
    cases r <;> simp only [step,at_,reduceCtorEq,Option.some.injEq,Prod.mk.injEq] at h
    all_goals obtain ⟨rfl,rfl,rfl⟩ := h
    all_goals first | exact .noInput at_ | (constructor; assumption)

end NewClient

namespace NewConsole

inductive Steps (t : Thread) (s : Slot) : Result → Call → Thread → Slot → Prop where
  | prompt (at_ : t.pc = .prompt) : Steps t s .done (.send s.client (.frame (promptText s.console)))
      {t with pc := .returnDirectory} s
  | returnDirectory {r} (at_ : t.pc = .returnDirectory) (outcome : r = .done ∨ r = .failed) :
      Steps t s r (.chdir (cString s.console.directory)) {t with pc := .assemble} s
  | assemble (at_ : t.pc = .assemble) :
      Steps t s .done .memory {t with pc := .fork (s.console.command ++ ascii " 2>&1")} s
  | forked {sPacket pid} (at_ : t.pc = .fork sPacket) : Steps t s (.process pid) (.fork sPacket)
      {t with pc := .closeInput} {s with console.activePipeID := pid}
  | notForked {sPacket} (at_ : t.pc = .fork sPacket) : Steps t s .failed (.fork sPacket)
      {t with pc := .closeInput} {s with console.activePipeID := -1}
  | closeInput (at_ : t.pc = .closeInput) : Steps t s .done (.close s.console.pipeParentToChild.1)
      {t with pc := .closeOutput} s
  | closeOutput (at_ : t.pc = .closeOutput) : Steps t s .done (.close s.console.pipeChildToParent.2)
      {t with pc := .enter} s
  | enter (at_ : t.pc = .enter) : Steps t s .done .memory
      {t with pc := .read,pipeProcessID := s.console.activePipeID,processOpen := true} s
  | again {late} (at_ : t.pc = .read) (skip : (late && t.processOpen) = false) :
      Steps t s (.again late) (.read s.console.pipeChildToParent.1) {t with pc := .testExit} s
  | againLate {late} (at_ : t.pc = .read) (due : (late && t.processOpen) = true) :
      Steps t s (.again late) (.read s.console.pipeChildToParent.1) {t with pc := .probe} s
  | output {b} (at_ : t.pc = .read) : Steps t s (.output b) (.read s.console.pipeChildToParent.1)
      {t with pc := .relay b} s
  | ended {r} (at_ : t.pc = .read) (outcome : r = .endOfFile ∨ r = .failed) :
      Steps t s r (.read s.console.pipeChildToParent.1) {t with pc := .kill} s
  | gone (at_ : t.pc = .probe) : Steps t s .failed (.fopen (t.pipeProcessID+1))
      {t with pc := .testExit,processOpen := false} s
  | probe {n} (at_ : t.pc = .probe) : Steps t s (.descriptor n) (.fopen (t.pipeProcessID+1))
      {t with pc := .probed n} s
  | probed {n} (at_ : t.pc = .probed n) : Steps t s .done (.fclose n) {t with pc := .testExit} s
  | cancelled (at_ : t.pc = .testExit) (exit : s.console.exitCode = 1) :
      Steps t s .done .memory {t with pc := .kill} s
  | goesOn (at_ : t.pc = .testExit) (stay : s.console.exitCode ≠ 1) :
      Steps t s .done .memory {t with pc := .mailbox} s
  | relay {b} (at_ : t.pc = .relay b) : Steps t s .done (.send s.client (.frame (cString b)))
      {t with pc := .mailbox} s
  | mail (at_ : t.pc = .mailbox) (full : s.console.hasNextCommand = true) :
      Steps t s .done .memory {t with pc := .write} s
  | noMail (at_ : t.pc = .mailbox) (empty : s.console.hasNextCommand = false) :
      Steps t s .done .memory {t with pc := .read} s
  | write (at_ : t.pc = .write) : Steps t s .done
      (.write s.console.pipeParentToChild.2 (cString s.console.nextCommand)) {t with pc := .clearFlag} s
  | clearFlag (at_ : t.pc = .clearFlag) : Steps t s .done .memory
      {t with pc := .clearText} {s with console.hasNextCommand := false}
  | clearText (at_ : t.pc = .clearText) : Steps t s .done .memory
      {t with pc := .read} {s with console.nextCommand := []}
  | kill {r} (at_ : t.pc = .kill) (outcome : r = .done ∨ r = .failed) :
      Steps t s r (.kill t.pipeProcessID) {t with pc := .killNext} s
  | killNext {r} (at_ : t.pc = .killNext) (outcome : r = .done ∨ r = .failed) :
      Steps t s r (.kill (t.pipeProcessID+1)) {t with pc := .report} s
  | report (at_ : t.pc = .report) : Steps t s .done
      (.send s.client (.frame (killedText t.pipeProcessID))) {t with pc := .finish} s
  | finish (at_ : t.pc = .finish) : Steps t s .done (.send s.client .endOfTransmission)
      {t with pc := .clearExit} s
  | clearExit (at_ : t.pc = .clearExit) : Steps t s .done .memory
      {t with pc := .deactivate} {s with console.exitCode := 0}
  | deactivate (at_ : t.pc = .deactivate) : Steps t s .done .memory
      {t with pc := .wait} {s with console.pipeActive := false}
  | reaped {pid} (at_ : t.pc = .wait) : Steps t s (.process pid) .wait {t with pc := .closeAgain 0} s
  | noChild (at_ : t.pc = .wait) : Steps t s .failed .wait {t with pc := .closeAgain 0} s
  | closeAgain {n} (at_ : t.pc = .closeAgain n) (more : n < 3) : Steps t s .done
      (.close (finalClose s.console n)) {t with pc := .closeAgain (n+1)} s
  | closeLast {n} (at_ : t.pc = .closeAgain n) (last : ¬ n < 3) : Steps t s .done
      (.close (finalClose s.console n)) {t with pc := .done} s

theorem steps {t s r call t' s'} (h : step t s r = some (call,t',s')) : Steps t s r call t' s' := by
  cases at_ : t.pc with
  | testExit =>
    by_cases exit : s.console.exitCode = 1 <;> cases r <;>
      simp only [step,at_,exit,if_true,if_false,reduceCtorEq,Option.some.injEq,Prod.mk.injEq] at h
    all_goals obtain ⟨rfl,rfl,rfl⟩ := h
    · exact .cancelled at_ exit
    · exact .goesOn at_ exit
  | mailbox =>
    cases full : s.console.hasNextCommand <;> cases r <;>
      simp only [step,at_,full,reduceCtorEq,Option.some.injEq,Prod.mk.injEq] at h
    all_goals obtain ⟨rfl,rfl,rfl⟩ := h
    · exact .noMail at_ full
    · exact .mail at_ full
  | read =>
    cases r with
    | again late =>
      cases due : late && t.processOpen <;>
        simp only [step,at_,due,Option.some.injEq,Prod.mk.injEq] at h
      all_goals obtain ⟨rfl,rfl,rfl⟩ := h
      · exact .again at_ due
      · exact .againLate at_ due
    | output b =>
      simp only [step,at_,Option.some.injEq,Prod.mk.injEq] at h
      obtain ⟨rfl,rfl,rfl⟩ := h
      exact .output at_
    | endOfFile | failed =>
      simp only [step,at_,Option.some.injEq,Prod.mk.injEq] at h
      obtain ⟨rfl,rfl,rfl⟩ := h
      exact .ended at_ (by simp)
    | _ => simp [step,at_] at h
  | closeAgain n =>
    by_cases more : n < 3 <;> cases r <;>
      simp only [step,at_,more,if_true,if_false,reduceCtorEq,Option.some.injEq,Prod.mk.injEq] at h
    all_goals obtain ⟨rfl,rfl,rfl⟩ := h
    · exact .closeAgain at_ more
    · exact .closeLast at_ more
  | _ =>
    cases r <;> simp only [step,at_,reduceCtorEq,Option.some.injEq,Prod.mk.injEq] at h
    all_goals obtain ⟨rfl,rfl,rfl⟩ := h
    all_goals constructor
    all_goals first | assumption | exact .inl rfl | exact .inr rfl

end NewConsole
end RemoteTerminal
