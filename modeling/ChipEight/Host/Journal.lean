import ChipEight.Attempt
import ChipEight.Host.Setup
import ChipEight.Log
import ChipEight.Machine.Step

/-!
What becomes known of the steps of a machine. A journal is a log and the number
of tones that a listener heard. It observes the events of steps one after the
other: an unknown opcode is reported before a tone of the same step, and under
a strict setup it is a fault that leaves the rest of its step unreported.
-/

namespace ChipEight

/-- A log and the number of tones heard. -/
structure Journal where
  log : Log
  heard : Nat

namespace Journal

def tell (j : Journal) (r : Report) : Journal := { j with log := j.log.report r }

def hear (setup : HostSetup) (j : Journal) (address : Word) : Journal where
  log := j.log.report (.tone address.toNat)
  heard := if setup.listening then j.heard + 1 else j.heard

def observe (setup : HostSetup) (j : Journal) (e : Event) : Attempt Journal Unit :=
  let fault := Fault.unknownOpcode e.instruction.toNat e.address.toNat
  if e.unknown && setup.strict then (j, .error fault)
  else
    let told := if e.unknown then j.tell (.unknownOpcode fault.message) else j
    .done (if e.tone then told.hear setup e.address else told)

def observeAll (setup : HostSetup) (j : Journal) (events : List Event) : Attempt Journal Unit :=
  Attempt.forEach (observe setup) events j

end Journal

end ChipEight
