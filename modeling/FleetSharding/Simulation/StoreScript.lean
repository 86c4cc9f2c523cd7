import FleetSharding.Etcd.Client
import FleetSharding.Simulation.VerbResult

/-!
# A script against the store

A script uses a node's place in the store, and changes the store behind its back.  What a verb makes
possible at once has happened before the next one comes.
-/

namespace FleetSharding

open Etcd (Client Fault Method Server StreamEnd)

/-- Something done to the store, or to the connection with it. -/
inductive StoreVerb where
  | put (key value : String)
  | delete (key : String)
  /-- Every lease ends. -/
  | expire
  /-- A rival writes before the next claim is judged. -/
  | race (key value : String)
  | fault (m : Method) (f : Fault)
  | endWatch (how : StreamEnd)

def Etcd.Client.suffer (c : Client) : StoreVerb → Client
  | .put key value => { c with server := c.server.write key value }
  | .delete key => { c with server := c.server.delete key }
  | .expire => { c with server := c.server.expire }
  | .race key value =>
    { c with server := { c.server with rivals := c.server.rivals ++ [(key, value)] } }
  | .fault m f => { c with server := c.server.setFault m f }
  | .endWatch how => c.endStream how

inductive DiscoveryVerb where
  | store (v : StoreVerb)
  | register
  | instances
  | deregister
  | watch
  /-- Looks for a signal of the watch. -/
  | receive
  /-- Nobody hears the signals any more. -/
  | unwatch
  | wait (millis : Nat)

/-- A node's place in the store, and the channel into which its watch signals. -/
structure StoreScript where
  client : Client
  channel : Option Signal

namespace StoreScript

/-- What became possible happens, and signals go into the channel. -/
def settle (s : StoreScript) : StoreScript :=
  let c := s.client.settle
  ⟨{ c with signals := 0 }, s.channel.map fun ch => c.signals.repeat Signal.notify ch⟩

/-- What the receiver finds; the channel has ended when no watch is left. -/
def receipt (s : StoreScript) (ch : Signal) : Receipt :=
  { ch with senders := [s.client.watch.isSome] }.receipt

def perform (s : StoreScript) : DiscoveryVerb → VerbResult × StoreScript
  | .store v => (.flag true, { s with client := s.client.suffer v })
  | .register =>
    let (result, client) := s.client.register
    (match result with
      | none => .nothing
      | some (.ok m) => .member m
      | some (.error e) => .failed e, { s with client })
  | .instances =>
    let (result, client) := s.client.instances
    (match result with
      | .ok ms => .members ms
      | .error e => .failed e, { s with client })
  | .deregister =>
    let (result, client) := s.client.deregister
    (match result with
      | .ok _ => .nothing
      | .error e => .failed e, { s with client })
  | .watch => (.nothing, ⟨s.client.startWatch, some (.ofCapacity 1)⟩)
  | .receive =>
    match s.channel with
    | none => (.nothing, s)
    | some ch => (.receipt (s.receipt ch), { s with channel := some ch.receive })
  | .unwatch => (.nothing, ⟨{ s.client with isHeard := false }, none⟩)
  | .wait millis =>
    (.nothing, { s with client := s.client.elapse (millis * Duration.nanosPerMilli) })

/-- A verb, and what follows at once. -/
def step (s : StoreScript) (v : DiscoveryVerb) : VerbResult × StoreScript :=
  let (result, s) := s.perform v
  (result, s.settle)

/-- The calls received and the events reported since these were last taken, in order. -/
def takeRecords (s : StoreScript) : List Etcd.Call × List Event × StoreScript :=
  let c := s.client
  (c.server.calls.reverse, c.journal.reverse,
    { s with client := { c with server := { c.server with calls := [] }, journal := [] } })

end StoreScript

end FleetSharding
