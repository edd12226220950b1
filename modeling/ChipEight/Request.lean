import ChipEight.Batch
import ChipEight.Host

/-!
The operations of a host as data, so that a whole session of use is a list. A
request that fails leaves the host as its operation left it, and the requests
after it are still served.
-/

namespace ChipEight

/-- What a host can be asked to do. -/
inductive Request where
  | reset
  | load (source : String) (numbers : List Int)
  | loadFile (name : String)
  | step
  | run (count : Nat)
  | tick
  | press (key : Int)
  | release (key : Int)
  | setKeys (flags : List Bool)
  | consume
  | peek (address : Int)
  | view
  deriving DecidableEq, Repr

/-- What a host answers. -/
inductive Reply where
  | done
  | stepped (event : Event)
  | ran (events : List Event)
  | ticked (tone : Bool)
  | shown (screen : Screen)
  | word (word : Word)
  | view (view : View)
  deriving DecidableEq

namespace Host

def serve (files : Files) (h : Host) : Request → Attempt Host Reply
  | .reset => (h.reset, .ok .done)
  | .load source numbers =>
    match Program.ofNumbers numbers with
    | .ok p => (h.load source p, .ok .done)
    | .error fault => (h, .error fault)
  | .loadFile name => (h.loadFile files name).mapResult fun _ => .done
  | .step => h.step.mapResult .stepped
  | .run count =>
    match Batch.check count with
    | .ok () => (h.run count).mapResult .ran
    | .error fault => (h, .error fault)
  | .tick =>
    let ticked := h.tick
    (ticked.1, .ok (.ticked ticked.2))
  | .press key => (h.setKey key true).mapResult fun _ => .done
  | .release key => (h.setKey key false).mapResult fun _ => .done
  | .setKeys flags => (h.setKeys flags).mapResult fun _ => .done
  | .consume => (h.consume.1, .ok (.shown h.consume.2))
  | .peek address => (h, .ok (.word (h.peek address)))
  | .view => (h, .ok (.view h.view))

def serveAll (files : Files) (h : Host) : List Request → Host × List (Except Fault Reply)
  | [] => (h, [])
  | r :: rest =>
    let first := h.serve files r
    let others := serveAll files first.1 rest
    (others.1, first.2 :: others.2)

end Host

end ChipEight
