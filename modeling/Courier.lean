import Courier.Bench.Component
import Courier.Bench.Context
import Courier.Bench.Transport
import Courier.Main
import Courier.Proofs.Broker.Balance
import Courier.Proofs.Broker.Conservation
import Courier.Proofs.Broker.Forwarding
import Courier.Proofs.Broker.Lineup
import Courier.Proofs.Broker.Redelivery
import Courier.Proofs.Broker.Relay
import Courier.Proofs.Broker.Contents
import Courier.Proofs.Broker.Succession
import Courier.Proofs.Broker.Waking
import Courier.Proofs.Draft
import Courier.Proofs.OrderPayload
import Courier.Proofs.Run.Acquisition
import Courier.Proofs.Run.Alarms
import Courier.Proofs.Run.Cancellation
import Courier.Proofs.Run.Discipline
import Courier.Proofs.Run.History
import Courier.Proofs.Run.Interruption
import Courier.Proofs.Run.Outcome
import Courier.Proofs.Run.RehearsalFuel
import Courier.Proofs.Run.Reporting
import Courier.Proofs.Run.DroppedErrors
import Courier.Proofs.Run.Stopping
import Courier.Proofs.Settings
import Courier.Proofs.StrategyName
import Courier.Proofs.Worker.Campaign
import Courier.Proofs.Worker.Demonstration
import Courier.Proofs.Worker.TimeOut
import Courier.Proofs.Worker.Metering
import Courier.Proofs.Worker.Quiescence
import Courier.Proofs.Worker.Settlement
import Courier.Rehearsal
